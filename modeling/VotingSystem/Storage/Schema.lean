import VotingSystem.Data.Table
import VotingSystem.Data.Bytes

namespace VotingSystem.Storage

open VotingSystem.Data

/-! The tables of `migrations/1.sql` and `2.sql`, with the columns some query
reads. Integer columns are integers; `IntColumn` is the range of `INT`. -/

def IntColumn (value : Int) : Prop := -2 ^ 31 ≤ value ∧ value < 2 ^ 31

instance (value : Int) : Decidable (IntColumn value) :=
  inferInstanceAs (Decidable (_ ∧ _))

theorem intColumn_toInt (value : Int32) : IntColumn value.toInt :=
  ⟨value.le_toInt, value.toInt_lt⟩

theorem toInt_ofInt {value : Int} (hvalue : IntColumn value) :
    (Int32.ofInt value).toInt = value :=
  Int32.toInt_ofInt_of_le hvalue.1 hvalue.2

theorem ofInt_inj {value value' : Int} (hvalue : IntColumn value)
    (hvalue' : IntColumn value') (heq : Int32.ofInt value = Int32.ofInt value') :
    value = value' := by
  rw [← toInt_ofInt hvalue, heq, toInt_ofInt hvalue']

structure ElectionRow where
  id : Int
  startTime : Int
  endTime : Int
  enabled : Bool
  allowWriteIn : Bool
  deriving DecidableEq, Repr

structure ElectionsVoterGroupRow where
  id : Int
  electionId : Int
  voterGroupId : Int
  deriving DecidableEq, Repr

structure VoterRow where
  id : Int
  voterGroupId : Int
  smartcardPublicKey : Bytes
  deriving DecidableEq, Repr

structure CandidateRow where
  id : Int
  electionId : Int
  firstName : Bytes
  lastName : Bytes
  deriving DecidableEq, Repr

structure CastEncryptedBallotRow where
  id : Int
  voterId : Int
  castAt : Int
  electionId : Int
  castCommandData : Bytes
  voterSignature : Bytes
  deriving DecidableEq, Repr

structure CastEncryptedBallotEntryRow where
  id : Int
  castEncryptedBallotId : Int
  candidateId : Int
  encryptedValue : Bytes
  deriving DecidableEq, Repr

structure TallyRow where
  id : Int
  electionId : Int
  deriving DecidableEq, Repr

structure TallyEntryRow where
  id : Int
  tallyId : Int
  candidateId : Int
  encryptedValue : Bytes
  decryptedValue : Int
  encryptionR : Bytes
  deriving DecidableEq, Repr

instance : Keyed ElectionRow := ⟨ElectionRow.id⟩
instance : Keyed ElectionsVoterGroupRow := ⟨ElectionsVoterGroupRow.id⟩
instance : Keyed VoterRow := ⟨VoterRow.id⟩
instance : Keyed CandidateRow := ⟨CandidateRow.id⟩
instance : Keyed CastEncryptedBallotRow := ⟨CastEncryptedBallotRow.id⟩
instance : Keyed CastEncryptedBallotEntryRow := ⟨CastEncryptedBallotEntryRow.id⟩
instance : Keyed TallyRow := ⟨TallyRow.id⟩
instance : Keyed TallyEntryRow := ⟨TallyEntryRow.id⟩

structure Database where
  elections : SerialTable ElectionRow
  electionsVoterGroups : SerialTable ElectionsVoterGroupRow
  voters : SerialTable VoterRow
  candidates : SerialTable CandidateRow
  castEncryptedBallots : SerialTable CastEncryptedBallotRow
  castEncryptedBallotEntries : SerialTable CastEncryptedBallotEntryRow
  tallies : SerialTable TallyRow
  tallyEntries : SerialTable TallyEntryRow

namespace Database

def empty : Database :=
  ⟨.empty, .empty, .empty, .empty, .empty, .empty, .empty, .empty⟩

/-- The tables a command never writes. -/
structure SameSetup (db db' : Database) : Prop where
  elections : db'.elections = db.elections
  electionsVoterGroups : db'.electionsVoterGroups = db.electionsVoterGroups
  voters : db'.voters = db.voters
  candidates : db'.candidates = db.candidates

namespace SameSetup

theorem refl (db : Database) : SameSetup db db := ⟨rfl, rfl, rfl, rfl⟩

theorem symm {first second : Database} (h : SameSetup first second) :
    SameSetup second first where
  elections := h.elections.symm
  electionsVoterGroups := h.electionsVoterGroups.symm
  voters := h.voters.symm
  candidates := h.candidates.symm

theorem trans {first second third : Database} (h : SameSetup first second)
    (h' : SameSetup second third) : SameSetup first third where
  elections := h'.elections.trans h.elections
  electionsVoterGroups := h'.electionsVoterGroups.trans h.electionsVoterGroups
  voters := h'.voters.trans h.voters
  candidates := h'.candidates.trans h.candidates

end SameSetup

/-- The promise of the column type `INT`. -/
structure IntColumns (db : Database) : Prop where
  elections : ∀ row ∈ db.elections.rows,
    IntColumn row.id ∧ IntColumn row.startTime ∧ IntColumn row.endTime
  electionsVoterGroups : ∀ row ∈ db.electionsVoterGroups.rows,
    IntColumn row.id ∧ IntColumn row.electionId ∧ IntColumn row.voterGroupId
  voters : ∀ row ∈ db.voters.rows, IntColumn row.id ∧ IntColumn row.voterGroupId
  candidates : ∀ row ∈ db.candidates.rows,
    IntColumn row.id ∧ IntColumn row.electionId
  castEncryptedBallots : ∀ row ∈ db.castEncryptedBallots.rows,
    IntColumn row.id ∧ IntColumn row.voterId ∧ IntColumn row.castAt ∧
      IntColumn row.electionId
  castEncryptedBallotEntries : ∀ row ∈ db.castEncryptedBallotEntries.rows,
    IntColumn row.id ∧ IntColumn row.castEncryptedBallotId ∧ IntColumn row.candidateId
  tallies : ∀ row ∈ db.tallies.rows, IntColumn row.id ∧ IntColumn row.electionId
  tallyEntries : ∀ row ∈ db.tallyEntries.rows,
    IntColumn row.id ∧ IntColumn row.tallyId ∧ IntColumn row.candidateId ∧
      IntColumn row.decryptedValue

theorem find_election (db : Database) {election election' : ElectionRow}
    (helection : election ∈ db.elections.rows) (helection' : election' ∈ db.elections.rows)
    (hid : election.id = election'.id) : election = election' :=
  db.elections.eq_of_key_eq helection helection' hid

end Database

end VotingSystem.Storage
