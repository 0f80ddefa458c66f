import VotingSystem.Server.SmallElection

namespace VotingSystem.Server

open VotingSystem.Data VotingSystem.Crypto VotingSystem.Protos VotingSystem.Storage

/-! What an accepted ballot encrypts. -/

structure Config.HoldsKey (config : Config) (key : KeyPair) : Prop where
  pub : config.paillierPubKey = pubHex key.modulus
  privP : config.paillierPrivKeyP = privHexP key.modulus
  privQ : config.paillierPrivKeyQ = privHexQ key.modulus

/-- The plaintext of an entry below the modulus, before any conversion. -/
def fullPlaintext (config : Config) (entry : EncryptedBallotEntry) : Nat :=
  decryptedPlaintext entry.encryptedValue config.paillierPrivKeyP config.paillierPrivKeyQ
    config.paillierPubKey

/-- Every entry encrypts what `paillierEnc` encrypts for zero or for one, and
exactly one of them for one. -/
structure ValidPlaintexts (config : Config) (entries : List EncryptedBallotEntry) : Prop where
  zero_or_one : ∀ entry ∈ entries,
    fullPlaintext config entry = encodedPlaintext 0 ∨
      fullPlaintext config entry = encodedPlaintext 1
  count_one : (entries.map (fullPlaintext config)).count (encodedPlaintext 1) = 1

def LowPlaintexts (config : Config) (entries : List EncryptedBallotEntry) : Prop :=
  ∀ entry ∈ entries, fullPlaintext config entry < 2 ^ 64

theorem decryptEntry_eq_iff {config : Config} {entry : EncryptedBallotEntry}
    (value : UInt64) :
    decryptEntry config entry.encryptedValue = value ↔
      fullPlaintext config entry % 2 ^ 64 = encodedPlaintext value :=
  paillierDec_eq_iff value

theorem encodedPlaintext_zero : encodedPlaintext 0 = 0 :=
  encodedPlaintext_of_lt (by decide)

theorem encodedPlaintext_one : encodedPlaintext 1 = 2 ^ 56 :=
  encodedPlaintext_of_lt (by decide)

theorem ValidPlaintexts.low {config : Config} {entries : List EncryptedBallotEntry}
    (hvalid : ValidPlaintexts config entries) : LowPlaintexts config entries := by
  intro entry hentry
  have hencoded := hvalid.zero_or_one entry hentry
  rw [encodedPlaintext_zero, encodedPlaintext_one] at hencoded
  omega

/-- The check of an accepted ballot is complete on plaintexts of 64 bits. -/
theorem Accepted.validPlaintexts_iff {config : Config} {db : Database}
    {pending : PendingBallot} (haccepted : Accepted config db pending) :
    ValidPlaintexts config pending.ballot.encryptedBallotEntries ↔
      LowPlaintexts config pending.ballot.encryptedBallotEntries := by
  refine ⟨ValidPlaintexts.low, fun hlow => ⟨?_, ?_⟩⟩
  · intro entry hentry
    have hvalue := haccepted.oneHot.zero_or_one
      (decryptEntry config entry.encryptedValue) (List.mem_map_of_mem hentry)
    rwa [decryptEntry_eq_iff, decryptEntry_eq_iff, Nat.mod_eq_of_lt (hlow entry hentry)]
      at hvalue
  · have hcount := haccepted.oneHot.count_one
    rw [List.count, List.countP_map] at hcount ⊢
    rw [← hcount]
    apply List.countP_congr
    intro entry hentry
    have hone := @decryptEntry_eq_iff config entry 1
    rw [Nat.mod_eq_of_lt (hlow entry hentry)] at hone
    simp [hone]

/-! The sum of a candidate over accepted ballots. -/

section CandidateSum

variable (config : Config)

def entrySum (candidateId : Int) (entries : List EncryptedBallotEntry) : Nat :=
  ((entries.filter fun entry => entry.candidateId.toInt = candidateId).map
    (fullPlaintext config)).sum

def candidateSum (candidateId : Int) (ballots : List PendingBallot) : Nat :=
  (ballots.map fun pending =>
    entrySum config candidateId pending.ballot.encryptedBallotEntries).sum

variable {config}

theorem Accepted.entrySum_le {db : Database} {pending : PendingBallot}
    (haccepted : Accepted config db pending)
    (hlow : LowPlaintexts config pending.ballot.encryptedBallotEntries)
    (candidateId : Int) :
    entrySum config candidateId pending.ballot.encryptedBallotEntries ≤
      encodedPlaintext 1 := by
  have hvalid := haccepted.validPlaintexts_iff.mpr hlow
  have hnodup : (pending.ballot.encryptedBallotEntries.map
      fun entry => entry.candidateId.toInt).Nodup := by
    rw [haccepted.candidates]
    exact candidateIds_nodup db _
  have hone : (pending.ballot.encryptedBallotEntries.filter fun entry =>
      entry.candidateId.toInt = candidateId).length ≤ 1 := by
    have hcount := List.nodup_iff_count_le_one.mp hnodup candidateId
    rwa [List.count, List.countP_map, List.countP_eq_length_filter] at hcount
  have hbound : ∀ entry ∈ pending.ballot.encryptedBallotEntries.filter fun entry =>
      entry.candidateId.toInt = candidateId,
      fullPlaintext config entry ≤ encodedPlaintext 1 := by
    intro entry hentry
    rcases hvalid.zero_or_one entry (List.mem_of_mem_filter hentry) with hzero | hone
    · rw [hzero, encodedPlaintext_zero]
      exact Nat.zero_le _
    · exact hone.le
  exact (sum_map_le hbound).trans ((Nat.mul_le_mul_right _ hone).trans_eq (one_mul _))

theorem candidateSum_le {db : Database} {ballots : List PendingBallot}
    (haccepted : ∀ pending ∈ ballots, Accepted config db pending ∧
      LowPlaintexts config pending.ballot.encryptedBallotEntries) (candidateId : Int) :
    candidateSum config candidateId ballots ≤ ballots.length * encodedPlaintext 1 := by
  apply sum_map_le
  intro pending hpending
  obtain ⟨hballot, hlow⟩ := haccepted pending hpending
  exact hballot.entrySum_le hlow candidateId

end CandidateSum

/-- A ballot that `castBallot` commits is valid exactly when its plaintexts have
64 bits; such ballots neither wrap the sum of a candidate nor exceed their own
number in it. -/
theorem committed_validPlaintexts_iff (key : KeyPair) {config : Config}
    (hconfig : config.HoldsKey key) (lib : Libraries) {currTime : Int} {db : Database}
    {commandData commandSignature : Bytes} {voterId : Int}
    (hcommit : (castBallot lib config currTime db commandData commandSignature voterId).2 ≠
      db) :
    (∃ ballot, EncryptedBallot.decode commandData = some ballot ∧
      (ValidPlaintexts config ballot.encryptedBallotEntries ↔
        LowPlaintexts config ballot.encryptedBallotEntries)) ∧
    ∀ (ballots : List PendingBallot) (candidateId : Int),
      (∀ pending ∈ ballots, Accepted config db pending ∧
        LowPlaintexts config pending.ballot.encryptedBallotEntries) →
      ballots.length < 2 ^ 31 →
      candidateSum config candidateId ballots ≤ ballots.length * encodedPlaintext 1 ∧
        candidateSum config candidateId ballots <
          (PaillierLib.paillierPubkeyFromHex config.paillierPubKey).n := by
  constructor
  · rcases castBallot_cases lib config currTime db commandData commandSignature voterId with
      ⟨error, _, hcast⟩ | ⟨pending, hchecks, _⟩
    · rw [hcast] at hcommit
      exact absurd rfl hcommit
    · obtain ⟨haccepted, _, _, rfl, _⟩ := castBallotChecks_eq_ok.mp hchecks
      exact ⟨pending.ballot, haccepted.decoded, haccepted.validPlaintexts_iff⟩
  · intro ballots candidateId haccepted hlength
    have hsum := candidateSum_le haccepted candidateId
    refine ⟨hsum, hsum.trans_lt ?_⟩
    have hlimit : (2 : Nat) ^ 87 ≤ 2 ^ 2047 := by decide +kernel
    have hproduct : ballots.length * 2 ^ 56 < 2 ^ 87 := by omega
    rw [encodedPlaintext_one, hconfig.pub, paillierPubkeyFromHex_n]
    exact hproduct.trans_le (hlimit.trans key.n_ge')

/-! A plaintext with a bit above the sixty-fourth passes the check. -/

def oversized : Nat := 2 ^ 64 + 2 ^ 56

namespace SmallElection

theorem config_holdsKey (small : SmallElection) :
    small.config.HoldsKey small.key := ⟨rfl, rfl, rfl⟩

theorem fullPlaintext_ballot (small : SmallElection) {plaintext blind : Nat}
    (hblind : blind.Coprime small.key.modulus.n) {entry : EncryptedBallotEntry}
    (hentry : entry ∈ (small.ballot plaintext blind).encryptedBallotEntries) :
    fullPlaintext small.config entry = plaintext % small.key.modulus.n := by
  simp only [ballot, List.mem_singleton] at hentry
  have hdecrypt := @decryptedPlaintext_encrypt _ small.key.n_lt plaintext blind hblind
  rw [hentry]
  unfold fullPlaintext config
  rw [hdecrypt]

end SmallElection

theorem oversized_lt : oversized < KeyPair.reference.modulus.n := by
  have hlimit : oversized < 2 ^ 2047 := by decide +kernel
  exact hlimit.trans_le KeyPair.reference.n_ge'

theorem oversized_commits :
    (castBallot SmallElection.referenceLib SmallElection.reference.config 5
      SmallElection.reference.database
      (encode (SmallElection.reference.ballot oversized 1)) [] 1).2 ≠
        SmallElection.reference.database := by
  have hplaintext : oversized % KeyPair.reference.modulus.n % 2 ^ 64 = 2 ^ 56 := by
    rw [Nat.mod_eq_of_lt oversized_lt]
    decide
  have haccepted : Accepted SmallElection.reference.config SmallElection.reference.database
      (SmallElection.reference.pending 5 oversized 1 []) :=
    (SmallElection.reference.accepted_iff (Nat.coprime_one_left _)).mpr
      ⟨⟨by decide, by decide⟩, hplaintext⟩
  have hcast := @castBallot_of_accepted SmallElection.referenceLib _ _ _ haccepted
  rw [SmallElection.pending] at hcast
  rw [hcast]
  exact insertBallot_ne _ _

theorem committed_validPlaintexts_iff_oversized :
    (∃ ballot,
      EncryptedBallot.decode (encode (SmallElection.reference.ballot oversized 1)) =
        some ballot ∧
      (ValidPlaintexts SmallElection.reference.config ballot.encryptedBallotEntries ↔
        LowPlaintexts SmallElection.reference.config ballot.encryptedBallotEntries)) ∧
    ∀ (ballots : List PendingBallot) (candidateId : Int),
      (∀ pending ∈ ballots,
        Accepted SmallElection.reference.config SmallElection.reference.database pending ∧
          LowPlaintexts SmallElection.reference.config
            pending.ballot.encryptedBallotEntries) →
      ballots.length < 2 ^ 31 →
      candidateSum SmallElection.reference.config candidateId ballots ≤
          ballots.length * encodedPlaintext 1 ∧
        candidateSum SmallElection.reference.config candidateId ballots <
          (PaillierLib.paillierPubkeyFromHex
            SmallElection.reference.config.paillierPubKey).n :=
  committed_validPlaintexts_iff .reference SmallElection.reference.config_holdsKey
    SmallElection.referenceLib oversized_commits

theorem oversized_invalid :
    (castBallot SmallElection.referenceLib SmallElection.reference.config 5
        SmallElection.reference.database
        (encode (SmallElection.reference.ballot oversized 1)) [] 1).2 ≠
          SmallElection.reference.database ∧
      EncryptedBallot.decode (encode (SmallElection.reference.ballot oversized 1)) =
        some (SmallElection.reference.ballot oversized 1) ∧
      ¬ValidPlaintexts SmallElection.reference.config
        (SmallElection.reference.ballot oversized 1).encryptedBallotEntries := by
  refine ⟨oversized_commits, EncryptedBallot.decode_encode _, fun hvalid => ?_⟩
  have hentry : (⟨0, 1, ciphertextBytes (KeyPair.reference.modulus.encrypt oversized 1)⟩ :
      EncryptedBallotEntry) ∈
        (SmallElection.reference.ballot oversized 1).encryptedBallotEntries :=
    List.mem_singleton.mpr rfl
  have hlow := hvalid.low _ hentry
  rw [SmallElection.reference.fullPlaintext_ballot (Nat.coprime_one_left _) hentry] at hlow
  have hsame := Nat.mod_eq_of_lt oversized_lt
  exact absurd (hsame.symm.trans_lt hlow) (by decide)

end VotingSystem.Server
