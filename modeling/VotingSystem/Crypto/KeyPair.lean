import Mathlib.Tactic.NormNum.Prime
import VotingSystem.Crypto.Cryptography
import VotingSystem.Number.Proth
import VotingSystem.Number.Residuosity

namespace VotingSystem.Crypto

open VotingSystem.Data VotingSystem.Number PaillierLib

/-! The Paillier functions on a key built from two primes. The bytes of every
ciphertext fit as long as the modulus has at most 2048 bits. -/

section Modulus

variable (modulus : Modulus)

abbrev pubHex : String := mpzGetStr modulus.n

abbrev privHexP : String := mpzGetStr modulus.p

abbrev privHexQ : String := mpzGetStr modulus.q

@[simp] theorem paillierPubkeyFromHex_n :
    (paillierPubkeyFromHex (pubHex modulus)).n = modulus.n := by
  simp [paillierPubkeyFromHex, completePubkey]

@[simp] theorem paillierPubkeyFromHex_nSquared :
    (paillierPubkeyFromHex (pubHex modulus)).nSquared = modulus.n ^ 2 := by
  simp [paillierPubkeyFromHex, completePubkey, pow_two]

@[simp] theorem paillierPubkeyFromHex_nPlusone :
    (paillierPubkeyFromHex (pubHex modulus)).nPlusone = 1 + modulus.n := by
  simp [paillierPubkeyFromHex, completePubkey, Nat.add_comm]

theorem prime_sub_one {prime : Nat} (hprime : prime.Prime) :
    ((prime : Int) - 1) = (prime - 1 : Nat) := by
  have := hprime.one_le
  omega

theorem lambda_eq_carmichael :
    Int.lcm ((modulus.p : Int) - 1) ((modulus.q : Int) - 1) = modulus.carmichael := by
  rw [prime_sub_one modulus.prime_p, prime_sub_one modulus.prime_q]
  rfl

@[simp] theorem paillierPrvkeyFromHex_lambda (pub : PaillierPubkey) :
    (paillierPrvkeyFromHex (privHexP modulus) (privHexQ modulus) pub).lambda =
      modulus.carmichael := by
  simp [paillierPrvkeyFromHex, completePrvkey, lambda_eq_carmichael]

theorem quotient_eq_slope {power n : Nat} (hpower : 0 < power) :
    ((power : Int) - 1) / n = (Number.slope n power : Nat) := by
  have hcast : ((power : Int) - 1) = (power - 1 : Nat) := by omega
  rw [hcast, Number.slope, Int.natCast_div]

theorem power_carmichael_pos {message blind : Nat} (hblind : blind.Coprime modulus.n) :
    0 < modulus.encrypt message blind ^ modulus.carmichael % modulus.n ^ 2 := by
  rw [modulus.encrypt_pow_carmichael hblind, one_add_mul_mod modulus.one_lt_n]
  omega

/-- `L((1 + n) ^ lambda)`, which the private key inverts. -/
theorem quotient_eq_carmichael :
    ((mpzPowm (1 + modulus.n) modulus.carmichael (modulus.n ^ 2) : Int) - 1) /
        modulus.n =
      (modulus.carmichael % modulus.n : Nat) := by
  have hblind : Nat.Coprime 1 modulus.n := Nat.coprime_one_left _
  have hunit : modulus.encrypt 1 1 % modulus.n ^ 2 = (1 + modulus.n) % modulus.n ^ 2 := by
    simp [Modulus.encrypt]
  have hpower :
      mpzPowm (1 + modulus.n) modulus.carmichael (modulus.n ^ 2) =
        modulus.encrypt 1 1 ^ modulus.carmichael % modulus.n ^ 2 := by
    rw [mpzPowm, Nat.pow_mod, ← hunit, ← Nat.pow_mod]
  have hslope : Number.slope modulus.n
      (modulus.encrypt 1 1 ^ modulus.carmichael % modulus.n ^ 2) =
        modulus.carmichael % modulus.n := by
    simpa using @Modulus.slope_encrypt_pow modulus 1 1 hblind
  rw [hpower, quotient_eq_slope (power_carmichael_pos modulus hblind), hslope]

theorem paillierPrvkeyFromHex_x :
    ∃ inverse : Nat,
      (paillierPrvkeyFromHex (privHexP modulus) (privHexQ modulus)
          (paillierPubkeyFromHex (pubHex modulus))).x = inverse ∧
        modulus.carmichael * inverse ≡ 1 [MOD modulus.n] := by
  have hcoprime : (modulus.carmichael % modulus.n).Coprime modulus.n :=
    mod_coprime modulus.carmichael_coprime
  obtain ⟨inverse, hinverse⟩ := Option.isSome_iff_exists.mp (mpzInvert_isSome hcoprime)
  refine ⟨inverse, ?_, ?_⟩
  · simp only [paillierPrvkeyFromHex, completePrvkey, mpzSetStr_mpzGetStr,
      lambda_eq_carmichael, paillierPubkeyFromHex_n, paillierPubkeyFromHex_nSquared,
      paillierPubkeyFromHex_nPlusone, quotient_eq_carmichael, hinverse]
  · have hspec := mpzInvert_spec hinverse modulus.one_lt_n
    have hnat : modulus.carmichael % modulus.n * inverse ≡ 1 [MOD modulus.n] := by
      rw [← Int.natCast_modEq_iff]
      simpa using hspec
    exact ((Nat.mod_modEq _ _).symm.mul_right inverse).trans hnat

theorem libPaillierEnc_eq (pt : Nat) (blinding : Blinding) :
    PaillierLib.paillierEnc (paillierPubkeyFromHex (pubHex modulus)) pt blinding =
      modulus.encrypt pt blinding.factor := by
  simp [PaillierLib.paillierEnc, mpzPowm, Modulus.encrypt]

theorem libPaillierDec_encrypt {message blind : Nat} (hblind : blind.Coprime modulus.n) :
    PaillierLib.paillierDec (paillierPubkeyFromHex (pubHex modulus))
        (paillierPrvkeyFromHex (privHexP modulus) (privHexQ modulus)
          (paillierPubkeyFromHex (pubHex modulus)))
        (modulus.encrypt message blind) =
      message % modulus.n := by
  obtain ⟨inverse, hx, hinverse⟩ := paillierPrvkeyFromHex_x modulus
  have hquotient := @quotient_eq_slope _ modulus.n
    (@power_carmichael_pos modulus message blind hblind)
  simp only [PaillierLib.paillierDec, hx, paillierPrvkeyFromHex_lambda,
    paillierPubkeyFromHex_n, paillierPubkeyFromHex_nSquared, mpzPowm, hquotient]
  rw [← modulus.slope_mul_inverse hblind hinverse]
  norm_cast

/-! Ciphertexts as byte strings. -/

def ciphertextBytes (ct : Nat) : Bytes := (Bytes.ofNatLE pCiphertextMaxLen ct).reverse

@[simp] theorem ciphertextBytes_length (ct : Nat) :
    (ciphertextBytes ct).length = pCiphertextMaxLen := by
  simp [ciphertextBytes]

theorem mpzImport_ciphertextBytes {ct : Nat} (hct : ct < 256 ^ pCiphertextMaxLen) :
    mpzImport (ciphertextBytes ct) = ct := by
  rw [mpzImport, ciphertextBytes, Bytes.bigEndian_reverse, Bytes.littleEndian_ofNatLE,
    Nat.mod_eq_of_lt hct]

theorem paillierCiphertextToBytes_ciphertextBytes {ct : Nat}
    (hct : ct < 256 ^ pCiphertextMaxLen) :
    paillierCiphertextToBytes pCiphertextMaxLen ct = ciphertextBytes ct :=
  paillierCiphertextToBytes_eq (by decide) hct

variable {modulus}

theorem lt_ciphertext_of_lt_square (hsize : modulus.n < 2 ^ 2048) {ct : Nat}
    (hct : ct < modulus.n ^ 2) : ct < 256 ^ pCiphertextMaxLen := by
  rw [pow_two] at hct
  exact hct.trans (square_lt_ciphertext hsize)

theorem paillierEnc_eq (hsize : modulus.n < 2 ^ 2048) (ptext : UInt64)
    (blinding : Blinding) :
    paillierEnc ptext (pubHex modulus) blinding =
      ciphertextBytes (modulus.encrypt (encodedPlaintext ptext) blinding.factor) := by
  simp only [paillierEnc, libPaillierEnc_eq]
  exact paillierCiphertextToBytes_ciphertextBytes
    (lt_ciphertext_of_lt_square hsize (modulus.encrypt_lt _ _))

theorem decryptedPlaintext_encrypt (hsize : modulus.n < 2 ^ 2048) {message blind : Nat}
    (hblind : blind.Coprime modulus.n) :
    decryptedPlaintext (ciphertextBytes (modulus.encrypt message blind))
        (privHexP modulus) (privHexQ modulus) (pubHex modulus) =
      message % modulus.n := by
  simp only [decryptedPlaintext, paillierCiphertextFromBytes]
  rw [mpzImport_ciphertextBytes
    (lt_ciphertext_of_lt_square hsize (modulus.encrypt_lt _ _)),
    libPaillierDec_encrypt modulus hblind]

theorem paillierDec_paillierEnc (hlarge : 2 ^ 64 < modulus.n) (hsize : modulus.n < 2 ^ 2048)
    (ptext : UInt64) {blinding : Blinding} (hblind : blinding.factor.Coprime modulus.n) :
    paillierDec (paillierEnc ptext (pubHex modulus) blinding) (privHexP modulus)
        (privHexQ modulus) (pubHex modulus) =
      ptext := by
  have hswap : Bytes.swap 8 ptext.toNat < 2 ^ 64 := Bytes.swap_lt 8 ptext.toNat
  rw [paillierDec_eq_iff, paillierEnc_eq hsize, decryptedPlaintext_encrypt hsize hblind,
    encodedPlaintext_eq, Nat.mod_eq_of_lt (hswap.trans hlarge), Nat.mod_eq_of_lt hswap]

end Modulus

/-- A key as `paillierKeygen` makes it for 2048 bits. -/
structure KeyPair where
  p : Nat
  q : Nat
  prime_p : p.Prime
  prime_q : q.Prime
  distinct : p ≠ q
  p_lt : p < 2 ^ 1024
  q_lt : q < 2 ^ 1024
  n_ge : 2 ^ 2047 ≤ p * q

namespace KeyPair

theorem factor_ge {p q : Nat} (hq : q < 2 ^ 1024) (hn : 2 ^ 2047 ≤ p * q) :
    2 ^ 1023 ≤ p := by
  have hlimit : 2 ^ 1023 * (2 * 2 ^ 1023) = 2 ^ 2047 := by decide +kernel
  exact factor_ge_of_product (by omega) (hlimit.trans_le hn)

def modulus (key : KeyPair) : Modulus where
  p := key.p
  q := key.q
  prime_p := key.prime_p
  prime_q := key.prime_q
  distinct := key.distinct
  coprime := coprime_of_same_length (2 ^ 1023) key.prime_p key.prime_q
    key.distinct (by decide +kernel) (factor_ge key.q_lt key.n_ge)
    (by have := key.p_lt; omega)
    (factor_ge key.p_lt (by have := key.n_ge; rwa [mul_comm]))
    (by have := key.q_lt; omega)

theorem n_lt (key : KeyPair) : key.modulus.n < 2 ^ 2048 := by
  have hproduct : key.p * key.q < 2 ^ 1024 * 2 ^ 1024 :=
    Nat.mul_lt_mul'' key.p_lt key.q_lt
  have hpow : (2 : Nat) ^ 1024 * 2 ^ 1024 = 2 ^ 2048 := by decide +kernel
  exact hproduct.trans_eq hpow

theorem n_ge' (key : KeyPair) : 2 ^ 2047 ≤ key.modulus.n := key.n_ge

theorem n_large (key : KeyPair) : 2 ^ 64 < key.modulus.n := by
  have hlimit : (2 : Nat) ^ 64 < 2 ^ 2047 := by decide +kernel
  exact hlimit.trans_le key.n_ge'

/-- No prime factor is small. -/
theorem coprime_of_lt (key : KeyPair) {value : Nat} (hpos : value ≠ 0)
    (hlt : value < 2 ^ 1023) : value.Coprime key.modulus.n := by
  have hp : 2 ^ 1023 ≤ key.p := factor_ge key.q_lt key.n_ge
  have hq : 2 ^ 1023 ≤ key.q := factor_ge key.p_lt (by have := key.n_ge; rwa [mul_comm])
  exact Nat.Coprime.mul_right
    (Nat.coprime_of_lt_prime hpos (hlt.trans_le hp) key.prime_p).symm
    (Nat.coprime_of_lt_prime hpos (hlt.trans_le hq) key.prime_q).symm

theorem coprime_two (key : KeyPair) : Nat.Coprime 2 key.modulus.n :=
  key.coprime_of_lt (by decide) (by decide +kernel)

theorem coprime_three (key : KeyPair) : Nat.Coprime 3 key.modulus.n :=
  key.coprime_of_lt (by decide) (by decide +kernel)

/-- An encoded one is smaller than the modulus. -/
theorem encodedOne_mod (key : KeyPair) : 2 ^ 56 % key.modulus.n = 2 ^ 56 := by
  apply Nat.mod_eq_of_lt
  exact Nat.lt_trans (by norm_num) key.n_large

@[irreducible] def reference : KeyPair where
  p := 3931 * 2 ^ (1011 + 1) + 1
  q := 7547 * 2 ^ (1010 + 1) + 1
  prime_p := @ProthCertificate.prime 3931 1011 3
    ⟨by norm_num, by decide +kernel, by decide +kernel⟩
  prime_q := @ProthCertificate.prime 7547 1010 3
    ⟨by norm_num, by decide +kernel, by decide +kernel⟩
  distinct := by decide +kernel
  p_lt := by decide +kernel
  q_lt := by decide +kernel
  n_ge := by decide +kernel

end KeyPair

end VotingSystem.Crypto
