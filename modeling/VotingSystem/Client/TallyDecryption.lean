import VotingSystem.Client.Client
import VotingSystem.Crypto.Opening
import VotingSystem.Server.BallotValidity
import VotingSystem.Server.TallyGenerator

namespace VotingSystem.Client

open VotingSystem.Data VotingSystem.Crypto VotingSystem.Number
open VotingSystem.Server (candidateTally)

/-! Checking the decrypted side of a tally. -/

/-- The conversion of an `int` argument to `unsigned long`. -/
def ulongOfInt (value : Int32) : UInt64 := UInt64.ofNat (value.toInt % 2 ^ 64).toNat

/-- The pointer to an empty vector is null, and then the factor is drawn. -/
def customRand (r : Bytes) (drawn : Nat) : PaillierLib.Blinding :=
  if r = [] then .drawn drawn else .custom r

/-- The claimed value is overwritten before it is encrypted. -/
def verifyTallyDecryption (config : Config) (_decrypted : Int32) (encrypted r : Bytes)
    (drawn : Nat) : Bool :=
  let decrypted : Int32 := 1
  let trueEncrypted :=
    paillierEnc (ulongOfInt decrypted) config.serverPaillierPubKey (customRand r drawn)
  encrypted.length = pCiphertextMaxLen &&
    trueEncrypted.take pCiphertextMaxLen = encrypted

section Opening

variable {key : KeyPair}

/-- The randomness of a ciphertext opens it to one value only, the one it decrypts
to. -/
theorem paillierEnc_eq_iff {ct : Nat} (hlt : ct < key.modulus.n ^ 2)
    (hunit : ct.Coprime key.modulus.n)
    (hsmall : decryptedPlaintext (ciphertextBytes ct) (privHexP key.modulus)
      (privHexQ key.modulus) (pubHex key.modulus) < 2 ^ 64) :
    ∃ r,
      paillierGetRand (ciphertextBytes ct) (privHexP key.modulus) (privHexQ key.modulus)
          (pubHex key.modulus) = some r ∧
        r ≠ [] ∧
        ∀ value : UInt64,
          paillierEnc value (pubHex key.modulus) (.custom r) = ciphertextBytes ct ↔
            value = paillierDec (ciphertextBytes ct) (privHexP key.modulus)
              (privHexQ key.modulus) (pubHex key.modulus) := by
  obtain ⟨message, hmessage, blind, hblind, hct⟩ := key.modulus.exists_opening hlt hunit
  have hbytes : mpzImport (ciphertextBytes ct) = ct :=
    mpzImport_ciphertextBytes (lt_ciphertext_of_lt_square key.n_lt hlt)
  have himport := hbytes.trans hct
  have hplain := decryptedPlaintext_of_import hblind himport
  have hfactor : mpzImport (mpzExport (blind % key.modulus.n)) = blind % key.modulus.n := by
    simp [mpzImport, mpzExport]
  have hreduced : (blind % key.modulus.n).Coprime key.modulus.n := mod_coprime hblind
  refine ⟨mpzExport (blind % key.modulus.n), paillierGetRand_of_import hblind himport,
    ?_, ?_⟩
  · intro hempty
    have hzero : blind % key.modulus.n = 0 := by
      rw [← hfactor, hempty]
      rfl
    rw [hzero, Nat.coprime_zero_left] at hreduced
    have := key.modulus.one_lt_n
    omega
  · intro value
    constructor
    · intro henc
      rw [← henc, paillierDec_paillierEnc key.n_large key.n_lt]
      rw [PaillierLib.Blinding.factor, hfactor]
      exact hreduced
    · rintro rfl
      rw [hplain] at hsmall
      rw [paillierEnc_reproduces key.n_lt hblind himport hsmall, hbytes]

/-- What the check comes to: the ciphertext decrypts to one. -/
theorem verifyTallyDecryption_iff {config : Config}
    (hpub : config.serverPaillierPubKey = pubHex key.modulus) {ct : Nat}
    (hlt : ct < key.modulus.n ^ 2) (hunit : ct.Coprime key.modulus.n)
    (hsmall : decryptedPlaintext (ciphertextBytes ct) (privHexP key.modulus)
      (privHexQ key.modulus) (pubHex key.modulus) < 2 ^ 64) :
    ∃ r,
      paillierGetRand (ciphertextBytes ct) (privHexP key.modulus) (privHexQ key.modulus)
          (pubHex key.modulus) = some r ∧
        ∀ (decrypted : Int32) (drawn : Nat),
          verifyTallyDecryption config decrypted (ciphertextBytes ct) r drawn = true ↔
            paillierDec (ciphertextBytes ct) (privHexP key.modulus)
              (privHexQ key.modulus) (pubHex key.modulus) = 1 := by
  obtain ⟨r, hrand, hnonempty, hopen⟩ := paillierEnc_eq_iff hlt hunit hsmall
  refine ⟨r, hrand, fun decrypted drawn => ?_⟩
  have hone : ulongOfInt 1 = 1 := by decide
  have hcustom : customRand r drawn = .custom r := if_neg hnonempty
  have htake : (paillierEnc 1 (pubHex key.modulus) (.custom r)).take pCiphertextMaxLen =
      paillierEnc 1 (pubHex key.modulus) (.custom r) := by
    apply List.take_of_length_le
    rw [paillierEnc_eq key.n_lt, ciphertextBytes_length]
  rw [@eq_comm UInt64, ← hopen 1]
  simp only [verifyTallyDecryption, hpub, hone, hcustom, htake, ciphertextBytes_length,
    decide_true, Bool.true_and, decide_eq_true_eq]

/-- A proof is judged rightly when one is claimed, and otherwise when the
ciphertext decrypts neither to one nor to the claim. -/
theorem verifyTallyDecryption_right_iff (key : KeyPair) (config : Config)
    (hpub : config.serverPaillierPubKey = pubHex key.modulus) (ct : Nat)
    (hlt : ct < key.modulus.n ^ 2) (hunit : ct.Coprime (key.modulus.n ^ 2))
    (hsmall : decryptedPlaintext (ciphertextBytes ct) (privHexP key.modulus)
      (privHexQ key.modulus) (pubHex key.modulus) < 2 ^ 64) :
    ∃ r,
      paillierGetRand (ciphertextBytes ct) (privHexP key.modulus) (privHexQ key.modulus)
          (pubHex key.modulus) = some r ∧
        ∀ (decrypted : Int32) (drawn : Nat),
          ((verifyTallyDecryption config decrypted (ciphertextBytes ct) r drawn = true ↔
              decrypted.toInt =
                (paillierDec (ciphertextBytes ct) (privHexP key.modulus)
                  (privHexQ key.modulus) (pubHex key.modulus)).toNat) ↔
            decrypted.toInt = 1 ∨
              ((paillierDec (ciphertextBytes ct) (privHexP key.modulus)
                    (privHexQ key.modulus) (pubHex key.modulus)).toNat ≠ 1 ∧
                decrypted.toInt ≠
                  (paillierDec (ciphertextBytes ct) (privHexP key.modulus)
                    (privHexQ key.modulus) (pubHex key.modulus)).toNat)) := by
  have hcoprime : ct.Coprime key.modulus.n :=
    hunit.coprime_dvd_right (Dvd.intro_left key.modulus.n (by ring))
  obtain ⟨r, hrand, hverify⟩ := verifyTallyDecryption_iff hpub hlt hcoprime hsmall
  refine ⟨r, hrand, fun decrypted drawn => ?_⟩
  have hone : (1 : UInt64).toNat = 1 := rfl
  rw [hverify, ← UInt64.toNat_inj, hone]
  generalize (paillierDec (ciphertextBytes ct) (privHexP key.modulus)
    (privHexQ key.modulus) (pubHex key.modulus)).toNat = value
  omega

/-- A tally entry that the server makes is accepted exactly when it counts one
vote, whatever count is claimed for it. -/
theorem verifyTallyDecryption_candidateTally {config : Config} {server : Server.Config}
    (hpub : config.serverPaillierPubKey = pubHex key.modulus) (hkey : server.HoldsKey key)
    {group : Int × List Bytes}
    (hunits : ∀ ctext ∈ group.2, (mpzImport ctext).Coprime key.modulus.n)
    (hsmall : decryptedPlaintext (candidateTally server group).encryptedValue
      (privHexP key.modulus) (privHexQ key.modulus) (pubHex key.modulus) < 2 ^ 64)
    (decrypted : Int32) (drawn : Nat) :
    verifyTallyDecryption config decrypted (candidateTally server group).encryptedValue
        (candidateTally server group).encryptionR drawn = true ↔
      (candidateTally server group).decryptedValue = 1 := by
  have hproduct : (group.2.map mpzImport).prod.Coprime key.modulus.n := by
    apply key.modulus.prod_coprime
    intro value hvalue
    obtain ⟨ctext, hctext, rfl⟩ := List.mem_map.mp hvalue
    exact hunits ctext hctext
  have hunit : ((group.2.map mpzImport).prod % key.modulus.n ^ 2).Coprime key.modulus.n := by
    have hmod : (group.2.map mpzImport).prod % key.modulus.n ^ 2 ≡
        (group.2.map mpzImport).prod [MOD key.modulus.n] :=
      modEq_of_modEq_square (Nat.mod_modEq _ _)
    rw [Nat.Coprime, hmod.gcd_eq]
    exact hproduct
  have hlt : (group.2.map mpzImport).prod % key.modulus.n ^ 2 < key.modulus.n ^ 2 :=
    Nat.mod_lt _ (pow_pos key.modulus.n_pos 2)
  simp only [candidateTally, hkey.pub, hkey.privP, hkey.privQ,
    paillierSum_eq_prod key.n_lt] at hsmall ⊢
  obtain ⟨r, hrand, hverify⟩ := verifyTallyDecryption_iff hpub hlt hunit hsmall
  rw [hrand, Option.getD_some]
  exact hverify decrypted drawn

end Opening

def referenceConfig : Config where
  clientPubKey := []
  clientPrivKey := []
  serverPubKey := []
  serverPaillierPubKey := pubHex KeyPair.reference.modulus

/-! The encryption of zero under the factor one. -/

theorem decryptedPlaintext_zero :
    decryptedPlaintext (ciphertextBytes 1) (privHexP KeyPair.reference.modulus)
        (privHexQ KeyPair.reference.modulus) (pubHex KeyPair.reference.modulus) = 0 := by
  have hdec := @decryptedPlaintext_encrypt KeyPair.reference.modulus KeyPair.reference.n_lt
    0 1 (Nat.coprime_one_left _)
  rwa [Modulus.encrypt_zero_one, Nat.zero_mod] at hdec

theorem paillierDec_zero :
    paillierDec (ciphertextBytes 1) (privHexP KeyPair.reference.modulus)
        (privHexQ KeyPair.reference.modulus) (pubHex KeyPair.reference.modulus) = 0 := by
  rw [paillierDec_eq, decryptedPlaintext_zero]
  decide

theorem verifyTallyDecryption_right_iff_zero :
    ∃ r,
      paillierGetRand (ciphertextBytes 1) (privHexP KeyPair.reference.modulus)
          (privHexQ KeyPair.reference.modulus) (pubHex KeyPair.reference.modulus) =
        some r ∧
      ¬ (verifyTallyDecryption referenceConfig 0 (ciphertextBytes 1) r 1 = true ↔
        (0 : Int32).toInt =
          (paillierDec (ciphertextBytes 1) (privHexP KeyPair.reference.modulus)
            (privHexQ KeyPair.reference.modulus) (pubHex KeyPair.reference.modulus)).toNat) := by
  obtain ⟨r, hrand, hright⟩ := verifyTallyDecryption_right_iff .reference referenceConfig rfl
    1 (one_lt_square _) (Nat.coprime_one_left _) (by rw [decryptedPlaintext_zero]; norm_num)
  refine ⟨r, hrand, ?_⟩
  rw [hright 0 1, paillierDec_zero]
  decide

/-- A count of zero with its own proof is refused. -/
theorem verifyTallyDecryption_refuses_zero :
    paillierDec (ciphertextBytes 1) (privHexP KeyPair.reference.modulus)
        (privHexQ KeyPair.reference.modulus) (pubHex KeyPair.reference.modulus) = 0 ∧
      ∃ r,
        paillierGetRand (ciphertextBytes 1) (privHexP KeyPair.reference.modulus)
            (privHexQ KeyPair.reference.modulus) (pubHex KeyPair.reference.modulus) =
          some r ∧
        verifyTallyDecryption referenceConfig 0 (ciphertextBytes 1) r 1 = false := by
  refine ⟨paillierDec_zero, ?_⟩
  obtain ⟨r, hrand, hverify⟩ := @verifyTallyDecryption_iff .reference referenceConfig rfl 1
    (one_lt_square _) (Nat.coprime_one_left _) (by rw [decryptedPlaintext_zero]; norm_num)
  refine ⟨r, hrand, ?_⟩
  rw [Bool.eq_false_iff, Ne, hverify, paillierDec_zero]
  decide

end VotingSystem.Client
