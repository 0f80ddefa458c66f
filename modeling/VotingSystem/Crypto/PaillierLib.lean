import VotingSystem.Crypto.Gmp

namespace VotingSystem.Crypto.PaillierLib

open VotingSystem.Data

/-! The functions of `paillier_lib` over natural numbers. An intermediate value
that GMP lets go below zero is an integer. -/

structure PaillierPubkey where
  bits : Nat
  n : Nat
  nSquared : Nat
  nPlusone : Nat
  deriving DecidableEq, Repr

structure PaillierPrvkey where
  lambda : Nat
  p : Nat
  q : Nat
  x : Int
  deriving DecidableEq, Repr

/-- The blinding factor is the number the rejection loop draws, unless the
caller passes `custom_rand`. -/
inductive Blinding
  | drawn (r : Nat)
  | custom (customRand : Bytes)
  deriving DecidableEq, Repr

def Blinding.factor : Blinding → Nat
  | .drawn r => r
  | .custom customRand => mpzImport customRand

def completePubkey (bits n : Nat) : PaillierPubkey where
  bits := bits
  n := n
  nSquared := n * n
  nPlusone := n + 1

/-- `mpz_div` rounds towards minus infinity; a failed `mpz_invert` leaves its
result undefined, taken here as unchanged. -/
def completePrvkey (lambda p q : Nat) (pub : PaillierPubkey) : PaillierPrvkey :=
  let power : Int := mpzPowm pub.nPlusone lambda pub.nSquared
  let quotient := (power - 1) / pub.n
  { lambda := lambda
    p := p
    q := q
    x := match mpzInvert quotient pub.n with
      | some inverse => inverse
      | none => quotient }

/-- `draws` are the primes that the two inner loops end with, turn by turn of the outer
loop; `none` when no turn passes its test. -/
def paillierKeygen (modulusbits : Nat) :
    List (Nat × Nat) → Option (PaillierPubkey × PaillierPrvkey)
  | [] => none
  | (p, q) :: draws =>
      let n := p * q
      if n.testBit (modulusbits - 1) then
        let pub := completePubkey modulusbits n
        let lambda := Int.lcm ((p : Int) - 1) ((q : Int) - 1)
        some (pub, completePrvkey lambda p q pub)
      else paillierKeygen modulusbits draws

def paillierEnc (pub : PaillierPubkey) (pt : Nat) (blinding : Blinding) : Nat :=
  mpzPowm pub.nPlusone pt pub.nSquared *
    mpzPowm blinding.factor pub.n pub.nSquared % pub.nSquared

def paillierDec (pub : PaillierPubkey) (prv : PaillierPrvkey) (ct : Nat) : Nat :=
  let power : Int := mpzPowm ct prv.lambda pub.nSquared
  ((power - 1) / pub.n * prv.x % pub.n).toNat

def paillierMul (pub : PaillierPubkey) (ct0 ct1 : Nat) : Nat :=
  ct0 * ct1 % pub.nSquared

def paillierCreateEncZero : Nat := 1

def paillierPlaintextFromBytes (bytes : Bytes) : Nat := mpzImport bytes

def paillierPlaintextToBytes (len pt : Nat) : Bytes :=
  let buf0 := mpzExport pt
  let written := buf0.length
  if written = len then
    buf0
  else if written = 0 then
    List.replicate len 0
  else if written < len then
    List.replicate (len - written) 0 ++ buf0
  else
    buf0.drop (written - len)

def paillierCiphertextFromBytes (bytes : Bytes) : Nat := mpzImport bytes

def paillierBitsToBytes (n : Nat) : Nat :=
  if n % 8 ≠ 0 then n / 8 + 1 else n / 8

/-- The offset at which `paillier_ciphertext_to_bytes` writes: negative when the
buffer is too short. -/
def paillierCiphertextOffset (len ct : Nat) : Int :=
  len - paillierBitsToBytes (mpzSizeinbase2 ct)

/-- The exported bytes overwrite a zeroed buffer of `len` bytes. -/
def paillierCiphertextToBytes (len ct : Nat) : Bytes :=
  let offset := (paillierCiphertextOffset len ct).toNat
  let exported := mpzExport ct
  List.replicate offset 0 ++ exported ++
    List.replicate (len - offset - exported.length) 0

def paillierPubkeyToHex (pub : PaillierPubkey) : String := mpzGetStr pub.n

def paillierPrvkeyToHex (prv : PaillierPrvkey) : String × String :=
  (mpzGetStr prv.p, mpzGetStr prv.q)

def paillierPubkeyFromHex (str : String) : PaillierPubkey :=
  let n := mpzSetStr str
  completePubkey (mpzSizeinbase2 n) n

def paillierPrvkeyFromHex (p q : String) (pub : PaillierPubkey) : PaillierPrvkey :=
  let p := mpzSetStr p
  let q := mpzSetStr q
  let lambda := Int.lcm ((p : Int) - 1) ((q : Int) - 1)
  completePrvkey lambda p q pub

/-! The byte forms in closed form. -/

theorem paillierPlaintextToBytes_eq (len pt : Nat) :
    paillierPlaintextToBytes len pt = (Bytes.ofNatLE len pt).reverse := by
  unfold paillierPlaintextToBytes mpzExport
  simp only [Bytes.minimalBE_length]
  rcases Nat.lt_or_ge (Bytes.byteCount pt) len with hshort | hlong
  · have hpad := Bytes.zeros_append_minimalBE
      (Bytes.byteCount_le_iff.mp hshort.le)
    rw [if_neg hshort.ne]
    split
    · rename_i hzero
      have hnil : Bytes.minimalBE pt = [] := by
        apply List.eq_nil_of_length_eq_zero
        rw [Bytes.minimalBE_length, hzero]
      simpa [hzero, hnil] using hpad
    · exact hpad
  · have hdrop := Bytes.drop_minimalBE hlong
    split
    · rename_i hexact
      simpa [hexact] using hdrop
    · rename_i hne
      split
      · omega
      · rw [if_neg (by omega)]
        exact hdrop

theorem paillierBitsToBytes_eq (n : Nat) : paillierBitsToBytes n = (n + 7) / 8 := by
  unfold paillierBitsToBytes
  split <;> omega

theorem paillierCiphertextToBytes_eq {len ct : Nat} (hlen : 0 < len)
    (hct : ct < 256 ^ len) :
    paillierCiphertextToBytes len ct = (Bytes.ofNatLE len ct).reverse := by
  have hcount := Bytes.byteCount_le_iff.mpr hct
  unfold paillierCiphertextToBytes paillierCiphertextOffset mpzExport
  simp only [paillierBitsToBytes_eq, mpzSizeinbase2, Bytes.minimalBE_length]
  rcases Nat.eq_zero_or_pos ct with rfl | hpos
  · obtain ⟨pred, rfl⟩ := Nat.exists_eq_add_of_le' hlen
    have hlast : (((pred + 1 : Nat) : Int) -
        ((max 1 (Nat.size 0) + 7) / 8 : Nat)).toNat = pred := by simp
    have hnone : Bytes.byteCount 0 = 0 := by decide
    have hempty : Bytes.minimalBE 0 = [] := by decide
    rw [hlast, hnone, hempty, List.append_nil, ← List.replicate_add,
      Bytes.ofNatLE_zero, List.reverse_replicate]
    congr 1
    omega
  · have hsize : 0 < Nat.size ct := Nat.size_pos.mpr hpos
    have hmax : max 1 (Nat.size ct) = Nat.size ct := by omega
    have hoffset : ((len : Int) - ((Nat.size ct + 7) / 8 : Nat)).toNat =
        len - Bytes.byteCount ct := by
      unfold Bytes.byteCount
      omega
    rw [hmax, hoffset, ← Bytes.zeros_append_minimalBE hct]
    have hfill : len - (len - Bytes.byteCount ct) - Bytes.byteCount ct = 0 := by omega
    simp [hfill]

theorem le_paillierCiphertextToBytes_length (len ct : Nat) :
    len ≤ (paillierCiphertextToBytes len ct).length := by
  simp only [paillierCiphertextToBytes, List.length_append, List.length_replicate]
  omega

end VotingSystem.Crypto.PaillierLib
