import VotingSystem.Crypto.Cryptography
import VotingSystem.Server.Response
import VotingSystem.Storage.Schema

namespace VotingSystem.Server

open VotingSystem.Data VotingSystem.Crypto VotingSystem.Protos VotingSystem.Storage

/-! `generateTally` and the clock that calls it. A result of `none` stands for an
access outside a vector or a value the database refuses. -/

section Selection

variable (db : Database)

def tallySelection (electionId : Int) : List CastEncryptedBallotEntryRow :=
  ((leftJoin (fun entry candidate => decide (candidate.id = entry.candidateId))
      db.castEncryptedBallotEntries.rows db.candidates.rows).filter fun row =>
    row.2.any fun (candidate : CandidateRow) => candidate.electionId = electionId).map
      Prod.fst

theorem tallySelection_eq (electionId : Int) :
    tallySelection db electionId =
      db.castEncryptedBallotEntries.rows.filter fun entry =>
        db.candidates.rows.any fun candidate =>
          decide (candidate.id = entry.candidateId) &&
            decide (candidate.electionId = electionId) := by
  apply map_fst_filter_leftJoin
  intro entry _
  exact db.candidates.filter_key_length_le entry.candidateId

theorem mem_tallySelection {electionId : Int} {entry : CastEncryptedBallotEntryRow} :
    entry ∈ tallySelection db electionId ↔
      entry ∈ db.castEncryptedBallotEntries.rows ∧
        ∃ candidate ∈ db.candidates.rows,
          candidate.id = entry.candidateId ∧ candidate.electionId = electionId := by
  rw [tallySelection_eq, List.mem_filter]
  simp

end Selection

/-- The ciphertexts that the query selects for a candidate. -/
def candidateSelection (db : Database) (electionId candidateId : Int) : List Bytes :=
  ((tallySelection db electionId).filter fun entry => entry.candidateId = candidateId).map
    CastEncryptedBallotEntryRow.encryptedValue

theorem candidateSelection_eq {db : Database} {candidate : CandidateRow}
    (hcandidate : candidate ∈ db.candidates.rows) :
    candidateSelection db candidate.electionId candidate.id =
      (db.castEncryptedBallotEntries.rows.filter fun entry =>
        entry.candidateId = candidate.id).map
          CastEncryptedBallotEntryRow.encryptedValue := by
  rw [candidateSelection, tallySelection_eq, List.filter_filter]
  congr 1
  apply List.filter_congr
  intro entry _
  by_cases hid : entry.candidateId = candidate.id
  · simpa [hid] using ⟨candidate, hcandidate, rfl, rfl⟩
  · simp [hid]

/-! Grouping. The map from candidates to ciphertexts is an association list. -/

abbrev Ciphertexts := List (Int × List Bytes)

namespace Ciphertexts

def get (ctexts : Ciphertexts) (candidateId : Int) : List Bytes :=
  (ctexts.lookup candidateId).getD []

def put (candidateId : Int) (values : List Bytes) : Ciphertexts → Ciphertexts
  | [] => [(candidateId, values)]
  | (otherId, others) :: rest =>
      if otherId = candidateId then (candidateId, values) :: rest
      else (otherId, others) :: put candidateId values rest

end Ciphertexts

/-- The vector of the candidate grows by one buffer of the right size, but the
bytes are copied to the position of the row in the whole result. -/
def groupRow (ctexts : Ciphertexts) (row : CastEncryptedBallotEntryRow × Nat) :
    Option Ciphertexts :=
  let (entry, idx) := row
  let values := ctexts.get entry.candidateId ++
    [List.replicate entry.encryptedValue.length 0]
  if idx < values.length then
    some (ctexts.put entry.candidateId (values.set idx entry.encryptedValue))
  else
    none

def groupCiphertexts (rows : List CastEncryptedBallotEntryRow) : Option Ciphertexts :=
  rows.zipIdx.foldlM groupRow []

structure CandidateTally where
  candidateId : Int
  encryptedValue : Bytes
  decryptedValue : UInt64
  encryptionR : Bytes
  deriving DecidableEq, Repr

section Generate

variable (config : Config)

def candidateTally (group : Int × List Bytes) : CandidateTally :=
  let encrypted := paillierSum group.2 config.paillierPubKey
  { candidateId := group.1
    encryptedValue := encrypted
    decryptedValue := paillierDec encrypted config.paillierPrivKeyP
      config.paillierPrivKeyQ config.paillierPubKey
    encryptionR := (paillierGetRand encrypted config.paillierPrivKeyP
      config.paillierPrivKeyQ config.paillierPubKey).getD [] }

def tallyEntryRow (tallyId : Int) (tally : CandidateTally) (id : Int) : TallyEntryRow where
  id := id
  tallyId := tallyId
  candidateId := tally.candidateId
  encryptedValue := tally.encryptedValue
  decryptedValue := tally.decryptedValue.toNat
  encryptionR := tally.encryptionR

def insertTally (db : Database) (electionId : Int) (entries : List CandidateTally) :
    Database :=
  { db with
    tallies := db.tallies.insert fun id => ⟨id, electionId⟩
    tallyEntries :=
      SerialTable.insertAll (tallyEntryRow db.tallies.nextval) (by intros; rfl)
        db.tallyEntries entries }

def generateTally (db : Database) (electionId : Int) : Option Database := do
  let ctexts ← groupCiphertexts (tallySelection db electionId)
  let tallies := ctexts.map (candidateTally config)
  if tallies.all fun tally => tally.decryptedValue.toNat < 2 ^ 31 then
    some (insertTally db electionId tallies)
  else
    none

end Generate

/-! `Clock.cpp`. -/

def untallied (db : Database) : List Int :=
  ((leftJoin (fun election tally => decide (election.id = tally.electionId))
      db.elections.rows db.tallies.rows).filter fun row => row.2.isNone).map
    fun row => row.1.id

def generateTallies (config : Config) (db : Database) : Option Database :=
  (untallied db).foldlM (generateTally config) db

theorem mem_untallied {db : Database} {electionId : Int} :
    electionId ∈ untallied db ↔
      (∃ election ∈ db.elections.rows, election.id = electionId) ∧
        ∀ tally ∈ db.tallies.rows, tally.electionId ≠ electionId := by
  have hrows := map_fst_filter_isNone_leftJoin
    (fun (election : ElectionRow) (tally : TallyRow) =>
      decide (election.id = tally.electionId)) db.elections.rows db.tallies.rows
  have hids : untallied db = (db.elections.rows.filter fun election =>
      !db.tallies.rows.any fun tally => decide (election.id = tally.electionId)).map
        ElectionRow.id := by
    rw [← hrows, List.map_map]
    rfl
  rw [hids, List.mem_map]
  simp only [List.mem_filter, Bool.not_eq_true', List.any_eq_false, decide_eq_true_eq]
  constructor
  · intro hexists
    obtain ⟨election, ⟨helection, hnone⟩, rfl⟩ := hexists
    exact ⟨⟨election, helection, rfl⟩, fun tally htally heq => hnone tally htally heq.symm⟩
  · intro hexists
    obtain ⟨⟨election, helection, rfl⟩, hnone⟩ := hexists
    exact ⟨election, ⟨helection, fun tally htally heq => hnone tally htally heq.symm⟩, rfl⟩

/-! A tally adds rows to its two tables only. -/

/-- A database that differs from another in tallies only, with a tally more for
each election of a list. -/
structure Tallied (elections : List Int) (db db' : Database) : Prop where
  setup : db.SameSetup db'
  ballots : db'.castEncryptedBallots = db.castEncryptedBallots
  entries : db'.castEncryptedBallotEntries = db.castEncryptedBallotEntries
  tallies : db'.tallies.rows.map TallyRow.electionId =
    db.tallies.rows.map TallyRow.electionId ++ elections

/-- What `generateTally` does when it returns. -/
theorem generateTally_eq_some {config : Config} {db db' : Database} {electionId : Int} :
    generateTally config db electionId = some db' ↔
      ∃ ctexts, groupCiphertexts (tallySelection db electionId) = some ctexts ∧
        (∀ group ∈ ctexts, (candidateTally config group).decryptedValue.toNat < 2 ^ 31) ∧
          insertTally db electionId (ctexts.map (candidateTally config)) = db' := by
  rw [generateTally, Option.bind_eq_bind, Option.bind_eq_some_iff]
  refine exists_congr fun ctexts => and_congr_right fun _ => ?_
  have hall : ((ctexts.map (candidateTally config)).all fun tally =>
      tally.decryptedValue.toNat < 2 ^ 31) = true ↔
        ∀ group ∈ ctexts, (candidateTally config group).decryptedValue.toNat < 2 ^ 31 := by
    simp
  simp only
  split
  · rename_i hsmall
    rw [Option.some.injEq]
    exact (and_iff_right (hall.mp hsmall)).symm
  · rename_i hlarge
    simp only [reduceCtorEq, false_iff, not_and]
    exact fun hsmall => absurd (hall.mpr hsmall) hlarge

theorem generateTally_tallied {config : Config} {db db' : Database} {electionId : Int}
    (hgenerate : generateTally config db electionId = some db') :
    Tallied [electionId] db db' := by
  obtain ⟨ctexts, _, _, rfl⟩ := generateTally_eq_some.mp hgenerate
  exact ⟨⟨rfl, rfl, rfl, rfl⟩, rfl, rfl, by simp [insertTally]⟩

theorem foldlM_generateTally_tallied {config : Config} {elections : List Int}
    {db db' : Database} (hfold : elections.foldlM (generateTally config) db = some db') :
    Tallied elections db db' := by
  induction elections generalizing db with
  | nil =>
      simp only [List.foldlM_nil, Option.pure_def, Option.some.injEq] at hfold
      subst hfold
      exact ⟨.refl db, rfl, rfl, by simp⟩
  | cons electionId elections ih =>
      rw [List.foldlM_cons] at hfold
      obtain ⟨middle, hfirst, hrest⟩ := Option.bind_eq_some_iff.mp hfold
      obtain ⟨hsetup, hballots, hentries, htallies⟩ := generateTally_tallied hfirst
      obtain ⟨hsetup', hballots', hentries', htallies'⟩ := ih hrest
      refine ⟨hsetup.trans hsetup', hballots'.trans hballots, hentries'.trans hentries, ?_⟩
      rw [htallies', htallies, List.append_assoc, List.singleton_append]

theorem generateTallies_tallied {config : Config} {db db' : Database}
    (htick : generateTallies config db = some db') : Tallied (untallied db) db db' :=
  foldlM_generateTally_tallied htick

end VotingSystem.Server
