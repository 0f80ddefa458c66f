import VotingSystem.Crypto.Cryptography

namespace VotingSystem.Crypto

open VotingSystem.Data PaillierLib

/-! The byte form of every ciphertext that `paillierEnc` and `paillierSum` make, for any
modulus that fits and any inputs. -/

/-- A buffer of this length holds the value, and reading it gives the value back. -/
structure SurvivesBytes (len value : Nat) : Prop where
  needed : paillierBitsToBytes (mpzSizeinbase2 value) ≤ len
  offset : 0 ≤ paillierCiphertextOffset len value
  length : (paillierCiphertextToBytes len value).length = len
  readBack : paillierCiphertextFromBytes (paillierCiphertextToBytes len value) = value

/-- GMP counts one bit of zero, so that even zero needs a byte. -/
theorem paillierBitsToBytes_sizeinbase2_le_iff {len : Nat} (hlen : 0 < len) (value : Nat) :
    paillierBitsToBytes (mpzSizeinbase2 value) ≤ len ↔ value < 256 ^ len := by
  have hpow : 256 ^ len = 2 ^ (8 * len) := by
    rw [pow_mul]
    norm_num
  rw [paillierBitsToBytes_eq, mpzSizeinbase2, hpow, ← Nat.size_le]
  omega

theorem survivesBytes_iff {len : Nat} (hlen : 0 < len) (value : Nat) :
    SurvivesBytes len value ↔ value < 256 ^ len := by
  constructor
  · intro hsurvives
    exact (paillierBitsToBytes_sizeinbase2_le_iff hlen value).mp hsurvives.needed
  · intro hvalue
    have hneeded := (paillierBitsToBytes_sizeinbase2_le_iff hlen value).mpr hvalue
    have hbytes := paillierCiphertextToBytes_eq hlen hvalue
    refine ⟨hneeded, ?_, ?_, ?_⟩
    · rw [paillierCiphertextOffset]
      omega
    · rw [hbytes, List.length_reverse, Bytes.ofNatLE_length]
    · rw [hbytes, paillierCiphertextFromBytes, mpzImport, Bytes.bigEndian_reverse,
        Bytes.littleEndian_ofNatLE, Nat.mod_eq_of_lt hvalue]

section Pubkey

variable {pubHex : String}

theorem one_lt_nSquared (hn : 1 < (paillierPubkeyFromHex pubHex).n) :
    1 < (paillierPubkeyFromHex pubHex).nSquared :=
  Nat.mul_lt_mul'' hn hn

/-- The value that the loop of `paillierSum` ends with. -/
def ciphertextSum (pub : PaillierPubkey) (ctextsIn : List Bytes) : Nat :=
  ctextsIn.foldl (fun sum ctext => paillierMul pub sum (paillierCiphertextFromBytes ctext))
    paillierCreateEncZero

theorem foldl_paillierMul_lt {pub : PaillierPubkey} (hpub : 0 < pub.nSquared) {sum : Nat}
    (hsum : sum < pub.nSquared) (ctextsIn : List Bytes) :
    ctextsIn.foldl
        (fun sum ctext => paillierMul pub sum (paillierCiphertextFromBytes ctext)) sum <
      pub.nSquared := by
  induction ctextsIn generalizing sum with
  | nil => exact hsum
  | cons ctext ctextsIn ih => exact ih (Nat.mod_lt _ hpub)

theorem ciphertextSum_lt (hn : 1 < (paillierPubkeyFromHex pubHex).n) (ctextsIn : List Bytes) :
    ciphertextSum (paillierPubkeyFromHex pubHex) ctextsIn <
      (paillierPubkeyFromHex pubHex).nSquared := by
  have hone := one_lt_nSquared hn
  exact foldl_paillierMul_lt (by omega) hone ctextsIn

theorem libPaillierEnc_lt (hn : 1 < (paillierPubkeyFromHex pubHex).n) (pt : Nat)
    (blinding : Blinding) :
    PaillierLib.paillierEnc (paillierPubkeyFromHex pubHex) pt blinding <
      (paillierPubkeyFromHex pubHex).nSquared := by
  have hone := one_lt_nSquared hn
  exact Nat.mod_lt _ (by omega)

theorem ciphertexts_survive_bytes (hn : 1 < (paillierPubkeyFromHex pubHex).n)
    (hsize : (paillierPubkeyFromHex pubHex).n < 2 ^ 2048) :
    (∀ (ptext : UInt64) (blinding : Blinding),
      let value := PaillierLib.paillierEnc (paillierPubkeyFromHex pubHex)
        (encodedPlaintext ptext) blinding
      paillierEnc ptext pubHex blinding = paillierCiphertextToBytes pCiphertextMaxLen value ∧
        SurvivesBytes pCiphertextMaxLen value) ∧
    ∀ ctextsIn : List Bytes,
      let value := ciphertextSum (paillierPubkeyFromHex pubHex) ctextsIn
      paillierSum ctextsIn pubHex = paillierCiphertextToBytes pCiphertextMaxLen value ∧
        SurvivesBytes pCiphertextMaxLen value := by
  have hlen : 0 < pCiphertextMaxLen := by decide
  have hsquare : (paillierPubkeyFromHex pubHex).nSquared < 256 ^ pCiphertextMaxLen :=
    square_lt_ciphertext hsize
  constructor
  · intro ptext blinding
    refine ⟨rfl, (survivesBytes_iff hlen _).mpr ?_⟩
    exact (libPaillierEnc_lt hn _ blinding).trans hsquare
  · intro ctextsIn
    refine ⟨rfl, (survivesBytes_iff hlen _).mpr ?_⟩
    exact (ciphertextSum_lt hn ctextsIn).trans hsquare

/-- One under the factor two, and a sum with the encryption of zero under it. -/
theorem ciphertexts_survive_bytes_small :
    (paillierEnc ((1 : UInt64) <<< 56) "f" (.custom [2])).length = pCiphertextMaxLen ∧
      paillierCiphertextFromBytes (paillierEnc ((1 : UInt64) <<< 56) "f" (.custom [2])) = 38 ∧
      (paillierSum [[38], [143]] "f").length = pCiphertextMaxLen ∧
        paillierCiphertextFromBytes (paillierSum [[38], [143]] "f") = 34 := by
  have hn : (paillierPubkeyFromHex "f").n = 15 := by decide
  have hone : PaillierLib.paillierEnc (paillierPubkeyFromHex "f") (encodedPlaintext ((1 : UInt64) <<< 56))
      (.custom [2]) = 38 := by decide +kernel
  have hvalue : ciphertextSum (paillierPubkeyFromHex "f") [[38], [143]] = 34 := by decide
  have hbytes := @ciphertexts_survive_bytes "f" (by rw [hn]; omega)
    (by rw [hn]; decide +kernel)
  obtain ⟨henc, hencoded⟩ := hbytes.1 ((1 : UInt64) <<< 56) (.custom [2])
  obtain ⟨hsum, hsummed⟩ := hbytes.2 [[38], [143]]
  rw [hone] at henc hencoded
  rw [hvalue] at hsum hsummed
  rw [henc, hsum]
  exact ⟨hencoded.length, hencoded.readBack, hsummed.length, hsummed.readBack⟩

end Pubkey

end VotingSystem.Crypto
