import VotingSystem.Crypto.PaillierLib

namespace VotingSystem.Crypto

open VotingSystem.Data

/-! `Cryptography.c` over the parts of wolfSSL it calls. -/

/-- wolfSSL as a parameter. A decoder that reports an error and a negative
result are `none`; the number is the size of the output buffer. -/
structure WolfCrypt where
  PrivateKey : Type
  PublicKey : Type
  sha256 : Bytes → Bytes
  rsaPrivateKeyDecode : Bytes → Option PrivateKey
  rsaPublicKeyDecode : Bytes → Option PublicKey
  rsaSSLSign : Bytes → Nat → PrivateKey → Option Bytes
  rsaSSLVerify : Bytes → Nat → PublicKey → Option Bytes

def sha256DigestSize : Nat := 32

def rsaSignatureSize : Nat := 256

def pCiphertextMaxLen : Nat := 512

def sizeofUnsignedLong : Nat := 8

section Rsa

variable (wolf : WolfCrypt)

def rsaSign (msg privKey : Bytes) (outLen : Nat) : Option Bytes := do
  let hash := wolf.sha256 msg
  let key ← wolf.rsaPrivateKeyDecode privKey
  wolf.rsaSSLSign hash outLen key

/-- The digest of the message is the output buffer of `wc_RsaSSL_Verify`: the
recovered payload overwrites it and is compared with nothing. -/
def rsaVerify (msg sig pubKey : Bytes) : Bool :=
  let _hash := wolf.sha256 msg
  match wolf.rsaPublicKeyDecode pubKey with
  | none => false
  | some key =>
      match wolf.rsaSSLVerify sig sha256DigestSize key with
      | none => false
      | some _hash => true

def signedPayload? (sig pubKey : Bytes) : Option Bytes := do
  let key ← wolf.rsaPublicKeyDecode pubKey
  wolf.rsaSSLVerify sig sha256DigestSize key

theorem rsaVerify_iff (msg sig pubKey : Bytes) :
    rsaVerify wolf msg sig pubKey = true ↔
      ∃ payload, signedPayload? wolf sig pubKey = some payload := by
  unfold rsaVerify signedPayload?
  cases wolf.rsaPublicKeyDecode pubKey with
  | none => simp
  | some key =>
      cases hverify : wolf.rsaSSLVerify sig sha256DigestSize key with
      | none => simp [hverify]
      | some payload => simp [hverify]

end Rsa

open PaillierLib

/-- The bytes of an `unsigned long` in memory, on a little-endian machine. -/
def ulongBytes (value : UInt64) : Bytes :=
  Bytes.ofNatLE sizeofUnsignedLong value.toNat

def ulongOfBytes (bytes : Bytes) : UInt64 :=
  UInt64.ofNat (Bytes.littleEndian (bytes.take sizeofUnsignedLong))

def encodedPlaintext (ptext : UInt64) : Nat :=
  paillierPlaintextFromBytes (ulongBytes ptext)

/-- `privHexP`, `privHexQ` and `pubHex`. -/
def paillierKeygen (bits : Nat) (draws : List (Nat × Nat)) :
    Option (String × String × String) := do
  let (pub, priv) ← PaillierLib.paillierKeygen bits draws
  let pubHex := paillierPubkeyToHex pub
  let (privHexP, privHexQ) := paillierPrvkeyToHex priv
  some (privHexP, privHexQ, pubHex)

def paillierEnc (ptext : UInt64) (pubHex : String) (blinding : Blinding) : Bytes :=
  let pub := paillierPubkeyFromHex pubHex
  let ct := PaillierLib.paillierEnc pub (encodedPlaintext ptext) blinding
  paillierCiphertextToBytes pCiphertextMaxLen ct

def decryptedPlaintext (ctext : Bytes) (privPHex privQHex pubHex : String) : Nat :=
  let pub := paillierPubkeyFromHex pubHex
  let priv := paillierPrvkeyFromHex privPHex privQHex pub
  PaillierLib.paillierDec pub priv (paillierCiphertextFromBytes ctext)

def paillierDec (ctext : Bytes) (privPHex privQHex pubHex : String) : UInt64 :=
  let pt := decryptedPlaintext ctext privPHex privQHex pubHex
  ulongOfBytes (paillierPlaintextToBytes sizeofUnsignedLong pt)

/-- `none` when the function returns false and leaves its outputs alone. -/
def paillierGetRand (ctext : Bytes) (privPHex privQHex pubHex : String) :
    Option Bytes := do
  let pub := paillierPubkeyFromHex pubHex
  let priv := paillierPrvkeyFromHex privPHex privQHex pub
  let ct := paillierCiphertextFromBytes ctext
  let pt := PaillierLib.paillierDec pub priv ct
  -- an encryption of zero with the same randomness
  let tempA : Int := ct * (1 - (pt * pub.n : Nat)) % pub.nSquared
  let tempB : Int := ((priv.q : Int) - 1) * ((priv.p : Int) - 1)
  let inverse ← mpzInvert pub.n tempB.toNat
  some (mpzExport (mpzPowm tempA.toNat inverse pub.n))

def paillierSum (ctextsIn : List Bytes) (pubHex : String) : Bytes :=
  let pub := paillierPubkeyFromHex pubHex
  let sum := ctextsIn.foldl
    (fun sum ctext => paillierMul pub sum (paillierCiphertextFromBytes ctext))
    paillierCreateEncZero
  paillierCiphertextToBytes pCiphertextMaxLen sum

/-- The buffer of a ciphertext holds every residue modulo the square of `n`. -/
theorem square_lt_ciphertext {n : Nat} (hsize : n < 2 ^ 2048) :
    n * n < 256 ^ pCiphertextMaxLen := by
  have hpow : (2 : Nat) ^ 2048 * 2 ^ 2048 = 256 ^ pCiphertextMaxLen := by
    decide +kernel
  exact (Nat.mul_lt_mul'' hsize hsize).trans_eq hpow

/-! Conversions between plaintexts and `unsigned long`. -/

theorem encodedPlaintext_eq (ptext : UInt64) :
    encodedPlaintext ptext = Bytes.swap 8 ptext.toNat := rfl

theorem paillierDec_eq (ctext : Bytes) (privPHex privQHex pubHex : String) :
    paillierDec ctext privPHex privQHex pubHex =
      UInt64.ofNat (Bytes.swap 8
        (decryptedPlaintext ctext privPHex privQHex pubHex)) := by
  simp only [paillierDec, ulongOfBytes, paillierPlaintextToBytes_eq]
  rw [List.take_of_length_le (by simp)]
  rfl

theorem swap_eq_iff {pt : Nat} (value : UInt64) :
    UInt64.ofNat (Bytes.swap 8 pt) = value ↔
      pt % 256 ^ 8 = Bytes.swap 8 value.toNat := by
  have hswap : Bytes.swap 8 pt < 2 ^ 64 := Bytes.swap_lt 8 pt
  have hvalue : value.toNat < 256 ^ 8 := value.toNat_lt
  rw [← UInt64.toNat_inj, UInt64.toNat_ofNat_of_lt' hswap]
  constructor
  · intro heq
    rw [← heq, Bytes.swap_swap]
  · intro heq
    have hround := congrArg (Bytes.swap 8) heq
    rw [Bytes.swap_swap, Nat.mod_eq_of_lt hvalue, ← Bytes.swap_swap 8 pt,
      Bytes.swap_swap 8 (Bytes.swap 8 pt), Nat.mod_eq_of_lt (Bytes.swap_lt 8 pt)]
      at hround
    exact hround

theorem paillierDec_eq_iff {ctext : Bytes} {privPHex privQHex pubHex : String}
    (value : UInt64) :
    paillierDec ctext privPHex privQHex pubHex = value ↔
      decryptedPlaintext ctext privPHex privQHex pubHex % 2 ^ 64 =
        encodedPlaintext value := by
  rw [paillierDec_eq, swap_eq_iff, encodedPlaintext_eq]
  norm_num

theorem encodedPlaintext_of_lt {ptext : UInt64} (hptext : ptext.toNat < 256) :
    encodedPlaintext ptext = ptext.toNat * 2 ^ 56 := by
  rw [encodedPlaintext_eq, Bytes.swap_of_lt hptext]
  norm_num

end VotingSystem.Crypto
