import VotingSystem.Crypto.KeyPair

namespace VotingSystem.Crypto

open VotingSystem.Data VotingSystem.Number PaillierLib

/-! What can be computed from ciphertexts without a private key. -/

/-- A plaintext with the blinding factor it is encrypted under. -/
structure Sealed (modulus : Modulus) where
  message : Nat
  blind : Nat
  coprime : blind.Coprime modulus.n

namespace Sealed

variable {modulus : Modulus}

def ciphertext (value : Sealed modulus) : Bytes :=
  ciphertextBytes (modulus.encrypt value.message value.blind)

/-- What `paillierDec` reads of the plaintext. -/
def choice (value : Sealed modulus) : UInt64 :=
  UInt64.ofNat (Bytes.swap 8 (value.message % modulus.n))

def mul (left right : Sealed modulus) : Sealed modulus where
  message := left.message + right.message
  blind := left.blind * right.blind
  coprime := left.coprime.mul_left right.coprime

theorem paillierDec_ciphertext (hsize : modulus.n < 2 ^ 2048) (value : Sealed modulus) :
    paillierDec value.ciphertext (privHexP modulus) (privHexQ modulus) (pubHex modulus) =
      value.choice := by
  rw [paillierDec_eq, ciphertext, decryptedPlaintext_encrypt hsize value.coprime, choice]

theorem mpzImport_ciphertext (hsize : modulus.n < 2 ^ 2048) (value : Sealed modulus) :
    mpzImport value.ciphertext = modulus.encrypt value.message value.blind :=
  mpzImport_ciphertextBytes (lt_ciphertext_of_lt_square hsize (modulus.encrypt_lt _ _))

/-- The product of two ciphertexts encrypts the sum of their plaintexts. -/
theorem paillierMul_ciphertext (hsize : modulus.n < 2 ^ 2048) (left right : Sealed modulus) :
    paillierCiphertextToBytes pCiphertextMaxLen
        (paillierMul (paillierPubkeyFromHex (pubHex modulus))
          (paillierCiphertextFromBytes left.ciphertext)
          (paillierCiphertextFromBytes right.ciphertext)) =
      (left.mul right).ciphertext := by
  have hproduct : paillierMul (paillierPubkeyFromHex (pubHex modulus))
      (paillierCiphertextFromBytes left.ciphertext)
      (paillierCiphertextFromBytes right.ciphertext) =
        modulus.encrypt (left.message + right.message) (left.blind * right.blind) := by
    simp only [paillierMul, paillierCiphertextFromBytes, mpzImport_ciphertext hsize,
      paillierPubkeyFromHex_nSquared]
    rw [← modulus.encrypt_mul]
  rw [hproduct]
  exact paillierCiphertextToBytes_ciphertextBytes
    (lt_ciphertext_of_lt_square hsize (modulus.encrypt_lt _ _))

end Sealed

/-- A ciphertext made from `size` given ones: a copy, a fresh encryption or a
product. -/
inductive Combination (modulus : Modulus) (size : Nat)
  | copy (idx : Fin size)
  | fresh (value : Sealed modulus)
  | mul (left right : Combination modulus size)

namespace Combination

variable {modulus : Modulus} {size : Nat}

def run (ctexts : List Bytes) : Combination modulus size → Bytes
  | copy idx => ctexts.getD idx []
  | fresh value => value.ciphertext
  | mul left right =>
      paillierCiphertextToBytes pCiphertextMaxLen
        (paillierMul (paillierPubkeyFromHex (pubHex modulus))
          (paillierCiphertextFromBytes (left.run ctexts))
          (paillierCiphertextFromBytes (right.run ctexts)))

def result (values : Fin size → Sealed modulus) : Combination modulus size → Sealed modulus
  | copy idx => values idx
  | fresh value => value
  | mul left right => (left.result values).mul (right.result values)

/-- A combination of ciphertexts encrypts the same combination of their
plaintexts. -/
theorem run_eq_ciphertext (hsize : modulus.n < 2 ^ 2048) (values : Fin size → Sealed modulus)
    (combination : Combination modulus size) :
    combination.run (List.ofFn fun idx => (values idx).ciphertext) =
      (combination.result values).ciphertext := by
  induction combination with
  | copy idx => simp [run, result]
  | fresh value => rfl
  | mul left right ihLeft ihRight =>
      rw [run, ihLeft, ihRight, Sealed.paillierMul_ciphertext hsize, result]

end Combination

end VotingSystem.Crypto
