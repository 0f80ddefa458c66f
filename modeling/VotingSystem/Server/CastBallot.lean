import VotingSystem.Server.Response
import VotingSystem.Storage.Schema

namespace VotingSystem.Server

open VotingSystem.Data VotingSystem.Crypto VotingSystem.Protos VotingSystem.Storage

/-! `castBallot`, split where its transaction commits: the checks read the
database and the clock, the insertions follow. -/

structure PendingBallot where
  voterId : Int
  castAt : Int
  ballot : EncryptedBallot
  commandData : Bytes
  commandSignature : Bytes
  deriving DecidableEq, Repr

section Checks

variable (config : Config)

def voterGroupId? (db : Database) (voterId : Int) : Option Int :=
  match db.voters.rows.filter fun voter => voter.id = voterId with
  | [voter] => some voter.voterGroupId
  | _ => none

def openElection (electionId currTime : Int) (election : ElectionRow) : Bool :=
  election.id = electionId && election.startTime ≤ currTime && currTime ≤ election.endTime

/-- The rows of the query that checks the election, its time window and the
voter's group. -/
def eligibilityRows (db : Database) (electionId currTime voterGroupId : Int) :
    List (ElectionRow × Option ElectionsVoterGroupRow) :=
  (leftJoin (fun election evg => decide (election.id = evg.electionId))
      db.elections.rows db.electionsVoterGroups.rows).filter fun row =>
    openElection electionId currTime row.1 &&
      row.2.any fun evg => evg.voterGroupId = voterGroupId

def candidateIds (db : Database) (electionId : Int) : List Int :=
  orderBy id
    ((db.candidates.rows.filter fun candidate => candidate.electionId = electionId).map
      CandidateRow.id)

def decryptEntry (encryptedValue : Bytes) : UInt64 :=
  paillierDec encryptedValue config.paillierPrivKeyP config.paillierPrivKeyQ
    config.paillierPubKey

/-- One turn of the loop over the candidates; `none` breaks it. -/
def checkEntry (foundOne : Bool) (turn : Int × EncryptedBallotEntry) : Option Bool :=
  let (candidateId, entry) := turn
  if entry.candidateId.toInt ≠ candidateId then
    none
  else
    let ptext := decryptEntry config entry.encryptedValue
    if ptext = 0 then
      some foundOne
    else if ptext = 1 ∧ foundOne = false then
      some true
    else
      none

def validBallotEntries (candidateIds : List Int) (entries : List EncryptedBallotEntry) :
    Bool :=
  if entries.length ≠ candidateIds.length then
    false
  else
    match (candidateIds.zip entries).foldlM (checkEntry config) false with
    | some foundOne => foundOne
    | none => false

/-- The checks on a decoded ballot, with the error each one answers with. -/
def castBallotChecks (db : Database) (currTime : Int) (commandData commandSignature : Bytes)
    (voterId : Int) : Except String PendingBallot :=
  match EncryptedBallot.decode commandData with
  | none => .error "Invalid ballot!"
  | some ballot =>
      match voterGroupId? db voterId with
      | none => .error "Invalid voter!"
      | some voterGroupId =>
          let electionId := ballot.electionId.toInt
          if (eligibilityRows db electionId currTime voterGroupId).length ≠ 1 then
            .error "Invalid election!"
          else if validBallotEntries config (candidateIds db electionId)
              ballot.encryptedBallotEntries = false then
            .error "Invalid ballot entries!"
          else
            .ok ⟨voterId, currTime, ballot, commandData, commandSignature⟩

end Checks

section Commit

def castEncryptedBallotRow (pending : PendingBallot) (id : Int) :
    CastEncryptedBallotRow where
  id := id
  voterId := pending.voterId
  castAt := pending.castAt
  electionId := pending.ballot.electionId.toInt
  castCommandData := pending.commandData
  voterSignature := pending.commandSignature

def castEncryptedBallotEntryRow (ballotId : Int) (entry : EncryptedBallotEntry) (id : Int) :
    CastEncryptedBallotEntryRow where
  id := id
  castEncryptedBallotId := ballotId
  candidateId := entry.candidateId.toInt
  encryptedValue := entry.encryptedValue

def insertBallot (db : Database) (pending : PendingBallot) : Database :=
  { db with
    castEncryptedBallots :=
      db.castEncryptedBallots.insert (castEncryptedBallotRow pending)
    castEncryptedBallotEntries :=
      SerialTable.insertAll (castEncryptedBallotEntryRow db.castEncryptedBallots.nextval)
        (by intros; rfl) db.castEncryptedBallotEntries
        pending.ballot.encryptedBallotEntries }

def numberEntries : (next : Int) → List EncryptedBallotEntry → List EncryptedBallotEntry
  | _, [] => []
  | next, entry :: entries =>
      { entry with id := Int32.ofInt next } :: numberEntries (next + 1) entries

def castReceipt (db : Database) (pending : PendingBallot) : CastEncryptedBallot where
  id := Int32.ofInt db.castEncryptedBallots.nextval
  voterId := Int32.ofInt pending.voterId
  castAt := Int32.ofInt pending.castAt
  encryptedBallot :=
    { pending.ballot with
      encryptedBallotEntries :=
        numberEntries db.castEncryptedBallotEntries.nextval
          pending.ballot.encryptedBallotEntries }
  castCommandData := pending.commandData
  voterSignature := pending.commandSignature

end Commit

section CastBallot

variable (lib : Libraries) (config : Config)

def castResponse (db : Database) (pending : PendingBallot) : Option Bytes := do
  let cebEncoded ← encodeMessage lib.encodeFails (castReceipt db pending)
  finishResponse lib config .castEncryptedBallot cebEncoded

def castBallot (currTime : Int) (db : Database) (commandData commandSignature : Bytes)
    (voterId : Int) : Option Bytes × Database :=
  match castBallotChecks config db currTime commandData commandSignature voterId with
  | .error error => (errorResponse lib config error, db)
  | .ok pending => (castResponse lib config db pending, insertBallot db pending)

end CastBallot

/-! What the checks establish. -/

theorem voterGroupId?_eq_some {db : Database} {voterId voterGroupId : Int} :
    voterGroupId? db voterId = some voterGroupId ↔
      ∃ voter ∈ db.voters.rows, voter.id = voterId ∧ voter.voterGroupId = voterGroupId := by
  constructor
  · intro hgroup
    unfold voterGroupId? at hgroup
    split at hgroup
    · rename_i voter hsingle
      have hmem : voter ∈ db.voters.rows.filter fun voter => voter.id = voterId := by
        simp [hsingle]
      rw [List.mem_filter] at hmem
      exact ⟨voter, hmem.1, by simpa using hmem.2, by simpa using hgroup⟩
    · contradiction
  · intro hexists
    obtain ⟨voter, hvoter, rfl, rfl⟩ := hexists
    have hsingle := db.voters.filter_key_eq_singleton hvoter
    simp only [Keyed.key] at hsingle
    simp [voterGroupId?, hsingle]

theorem eligibilityRows_length {db : Database} {election : ElectionRow}
    (helection : election ∈ db.elections.rows) {currTime : Int}
    (hstart : election.startTime ≤ currTime) (hend : currTime ≤ election.endTime)
    (voterGroupId : Int) :
    (eligibilityRows db election.id currTime voterGroupId).length =
      (db.electionsVoterGroups.rows.filter fun evg =>
        evg.electionId = election.id ∧ evg.voterGroupId = voterGroupId).length := by
  have hsingle := db.elections.filter_key_eq_singleton helection
  simp only [Keyed.key] at hsingle
  have hkeep : db.elections.rows.filter (openElection election.id currTime) =
      [election] := by
    have hsplit : db.elections.rows.filter (openElection election.id currTime) =
        (db.elections.rows.filter fun row => row.id = election.id).filter fun row =>
          (row.startTime ≤ currTime && currTime ≤ row.endTime) := by
      rw [List.filter_filter]
      apply List.filter_congr
      intro row _
      unfold openElection
      cases decide (row.id = election.id) <;> simp
    rw [hsplit, hsingle]
    simp [hstart, hend]
  rw [eligibilityRows, filter_leftJoin, hkeep, List.flatMap_singleton, List.length_map,
    List.filter_filter]
  congr 1
  apply List.filter_congr
  intro evg _
  by_cases hgroup : evg.voterGroupId = voterGroupId <;> simp [hgroup, eq_comm]

theorem exists_of_eligible {db : Database} {electionId currTime voterGroupId : Int}
    (hone : (eligibilityRows db electionId currTime voterGroupId).length = 1) :
    ∃ election ∈ db.elections.rows, ∃ evg ∈ db.electionsVoterGroups.rows,
      election.id = electionId ∧ election.startTime ≤ currTime ∧
        currTime ≤ election.endTime ∧ evg.electionId = electionId ∧
          evg.voterGroupId = voterGroupId := by
  have hpos : 0 < (eligibilityRows db electionId currTime voterGroupId).length := by omega
  obtain ⟨row, hrow⟩ := List.exists_mem_of_length_pos hpos
  rw [eligibilityRows, filter_leftJoin, List.mem_flatMap] at hrow
  obtain ⟨election, helection, hrow⟩ := hrow
  obtain ⟨evg, hevg, rfl⟩ := List.mem_map.mp hrow
  simp only [openElection, List.mem_filter, Bool.and_eq_true, decide_eq_true_eq]
    at helection hevg
  obtain ⟨helection, ⟨hid, hstart⟩, hend⟩ := helection
  obtain ⟨⟨hevg, hjoin⟩, hgroup⟩ := hevg
  exact ⟨election, helection, evg, hevg, hid, hstart, hend, by rw [← hjoin, hid], hgroup⟩

theorem candidateIds_perm (db : Database) (electionId : Int) :
    (candidateIds db electionId).Perm
      ((db.candidates.rows.filter fun candidate =>
        candidate.electionId = electionId).map CandidateRow.id) :=
  orderBy_perm _ _

theorem candidateIds_nodup (db : Database) (electionId : Int) :
    (candidateIds db electionId).Nodup := by
  rw [(candidateIds_perm db electionId).nodup_iff]
  exact db.candidates.keys_nodup.sublist (List.filter_sublist.map _)

theorem candidateIds_sorted (db : Database) (electionId : Int) :
    (candidateIds db electionId).Pairwise (· < ·) := by
  have hnodup : (((db.candidates.rows.filter fun candidate =>
      candidate.electionId = electionId).map CandidateRow.id).map id).Nodup := by
    rw [List.map_id]
    exact db.candidates.keys_nodup.sublist (List.filter_sublist.map _)
  exact orderBy_pairwise_lt id hnodup

theorem mem_candidateIds {db : Database} {electionId candidateId : Int} :
    candidateId ∈ candidateIds db electionId ↔
      ∃ candidate ∈ db.candidates.rows,
        candidate.electionId = electionId ∧ candidate.id = candidateId := by
  rw [(candidateIds_perm db electionId).mem_iff, List.mem_map]
  simp [List.mem_filter, and_assoc]

/-- Every value is zero or one, and exactly one of them is one. -/
structure OneHot (values : List UInt64) : Prop where
  zero_or_one : ∀ value ∈ values, value = 0 ∨ value = 1
  count_one : values.count 1 = 1

theorem checkEntry_eq_some {config : Config} {foundOne foundOne' : Bool} {candidateId : Int}
    {entry : EncryptedBallotEntry} :
    checkEntry config foundOne (candidateId, entry) = some foundOne' ↔
      entry.candidateId.toInt = candidateId ∧
        (decryptEntry config entry.encryptedValue = 0 ∧ foundOne' = foundOne ∨
          decryptEntry config entry.encryptedValue = 1 ∧ foundOne = false ∧
            foundOne' = true) := by
  unfold checkEntry
  simp only
  split
  · rename_i hid
    simp [hid]
  · rename_i hid
    have hid : entry.candidateId.toInt = candidateId := by simpa using hid
    split
    · rename_i hzero
      simp [hid, hzero, eq_comm]
    · rename_i hnonzero
      split
      · rename_i hone
        simp [hid, hone.1, hone.2, eq_comm]
      · rename_i hneither
        have hfalse : ¬(decryptEntry config entry.encryptedValue = 1 ∧
            foundOne = false ∧ foundOne' = true) := fun h => hneither ⟨h.1, h.2.1⟩
        simp [hnonzero, hfalse]

/-- The loop succeeds on entries that follow the candidates, carry zeros and
ones, and together with what was found before hold at most one one. -/
theorem foldlM_checkEntry {config : Config} {candidateIds : List Int}
    {entries : List EncryptedBallotEntry} {foundOne foundOne' : Bool}
    (hlength : entries.length = candidateIds.length) :
    (candidateIds.zip entries).foldlM (checkEntry config) foundOne = some foundOne' ↔
      entries.map (fun entry => entry.candidateId.toInt) = candidateIds ∧
        (∀ value ∈ entries.map fun entry => decryptEntry config entry.encryptedValue,
          value = 0 ∨ value = 1) ∧
        (entries.map fun entry => decryptEntry config entry.encryptedValue).count 1 +
          foundOne.toNat = foundOne'.toNat := by
  induction entries generalizing candidateIds foundOne with
  | nil =>
      obtain rfl : candidateIds = [] := List.length_eq_zero_iff.mp hlength.symm
      cases foundOne <;> cases foundOne' <;> simp
  | cons entry entries ih =>
      match candidateIds, hlength with
      | candidateId :: candidateIds, hlength =>
          have htail : entries.length = candidateIds.length := by simpa using hlength
          simp only [List.zip_cons_cons, List.foldlM_cons, Option.bind_eq_bind,
            Option.bind_eq_some_iff, checkEntry_eq_some, ih htail, List.map_cons,
            List.mem_cons, List.cons.injEq, forall_eq_or_imp, List.count_cons]
          constructor
          · intro hturn
            obtain ⟨middle, ⟨hid, hvalue⟩, hids, hvalues, hcount⟩ := hturn
            rcases hvalue with ⟨hzero, rfl⟩ | ⟨hone, rfl, rfl⟩
            · exact ⟨⟨hid, hids⟩, ⟨.inl hzero, hvalues⟩, by simpa [hzero] using hcount⟩
            · exact ⟨⟨hid, hids⟩, ⟨.inr hone, hvalues⟩, by simpa [hone] using hcount⟩
          · intro hlists
            obtain ⟨⟨hid, hids⟩, ⟨hvalue, hvalues⟩, hcount⟩ := hlists
            rcases hvalue with hzero | hone
            · exact ⟨foundOne, ⟨hid, .inl ⟨hzero, rfl⟩⟩, hids, hvalues,
                by simpa [hzero] using hcount⟩
            · have hle := Bool.toNat_le foundOne'
              have hbefore : foundOne = false := by
                cases foundOne with
                | false => rfl
                | true =>
                    simp only [hone, beq_self_eq_true, if_true, Bool.toNat_true] at hcount
                    omega
              subst hbefore
              exact ⟨true, ⟨hid, .inr ⟨hone, rfl, rfl⟩⟩, hids, hvalues,
                by simpa [hone] using hcount⟩

theorem validBallotEntries_iff {config : Config} {candidateIds : List Int}
    {entries : List EncryptedBallotEntry} :
    validBallotEntries config candidateIds entries = true ↔
      entries.map (fun entry => entry.candidateId.toInt) = candidateIds ∧
        OneHot (entries.map fun entry => decryptEntry config entry.encryptedValue) := by
  unfold validBallotEntries
  split
  · rename_i hlength
    refine ⟨by simp, fun ⟨hids, _⟩ => ?_⟩
    rw [← hids, List.length_map] at hlength
    exact absurd rfl hlength
  · rename_i hlength
    have hlength : entries.length = candidateIds.length := by simpa using hlength
    have hloop := @foldlM_checkEntry config candidateIds entries false true hlength
    have hresult :
        (match (candidateIds.zip entries).foldlM (checkEntry config) false with
          | some foundOne => foundOne
          | none => false) = true ↔
          (candidateIds.zip entries).foldlM (checkEntry config) false = some true := by
      cases (candidateIds.zip entries).foldlM (checkEntry config) false <;> simp
    rw [hresult, hloop]
    constructor
    · intro hlists
      obtain ⟨hids, hvalues, hcount⟩ := hlists
      exact ⟨hids, hvalues, by simpa using hcount⟩
    · intro hlists
      obtain ⟨hids, hvalues, hcount⟩ := hlists
      exact ⟨hids, hvalues, by simpa using hcount⟩

structure Accepted (config : Config) (db : Database) (pending : PendingBallot) : Prop where
  decoded : EncryptedBallot.decode pending.commandData = some pending.ballot
  voter : ∃ voter ∈ db.voters.rows, voter.id = pending.voterId ∧
    (eligibilityRows db pending.ballot.electionId.toInt pending.castAt
      voter.voterGroupId).length = 1
  candidates :
    pending.ballot.encryptedBallotEntries.map (fun entry => entry.candidateId.toInt) =
      candidateIds db pending.ballot.electionId.toInt
  oneHot : OneHot (pending.ballot.encryptedBallotEntries.map fun entry =>
    decryptEntry config entry.encryptedValue)

theorem castBallotChecks_eq_ok {config : Config} {db : Database} {currTime voterId : Int}
    {commandData commandSignature : Bytes} {pending : PendingBallot} :
    castBallotChecks config db currTime commandData commandSignature voterId = .ok pending ↔
      Accepted config db pending ∧ pending.voterId = voterId ∧
        pending.castAt = currTime ∧ pending.commandData = commandData ∧
          pending.commandSignature = commandSignature := by
  unfold castBallotChecks
  constructor
  · intro hchecks
    split at hchecks
    · contradiction
    · rename_i ballot hdecode
      split at hchecks
      · contradiction
      · rename_i voterGroupId hgroup
        simp only at hchecks
        split at hchecks
        · contradiction
        · rename_i heligible
          split at hchecks
          · contradiction
          · rename_i hentries
            simp only [Except.ok.injEq] at hchecks
            subst hchecks
            obtain ⟨voter, hvoter, hid, rfl⟩ := voterGroupId?_eq_some.mp hgroup
            obtain ⟨hids, honeHot⟩ :=
              validBallotEntries_iff.mp (Bool.of_not_eq_false hentries)
            exact ⟨⟨hdecode, ⟨voter, hvoter, hid, not_not.mp heligible⟩, hids, honeHot⟩,
              rfl, rfl, rfl, rfl⟩
  · intro hfields
    obtain ⟨⟨hdecode, ⟨voter, hvoter, hid, heligible⟩, hids, honeHot⟩, rfl, rfl, rfl, rfl⟩ := hfields
    have hgroup : voterGroupId? db pending.voterId = some voter.voterGroupId :=
      voterGroupId?_eq_some.mpr ⟨voter, hvoter, hid, rfl⟩
    have hentries := validBallotEntries_iff.mpr ⟨hids, honeHot⟩
    simp [hdecode, hgroup, heligible, hentries]

/-! The checks read the setup only. -/

section SameSetup

variable {db db' : Database} (hsetup : db.SameSetup db')

include hsetup

theorem eligibilityRows_of_sameSetup (electionId currTime voterGroupId : Int) :
    eligibilityRows db' electionId currTime voterGroupId =
      eligibilityRows db electionId currTime voterGroupId := by
  rw [eligibilityRows, eligibilityRows, hsetup.elections, hsetup.electionsVoterGroups]

theorem candidateIds_of_sameSetup (electionId : Int) :
    candidateIds db' electionId = candidateIds db electionId := by
  rw [candidateIds, candidateIds, hsetup.candidates]

theorem Accepted.of_sameSetup {config : Config} {pending : PendingBallot}
    (haccepted : Accepted config db pending) : Accepted config db' pending where
  decoded := haccepted.decoded
  voter := by
    rw [hsetup.voters]
    simpa only [eligibilityRows_of_sameSetup hsetup] using haccepted.voter
  candidates := haccepted.candidates.trans (candidateIds_of_sameSetup hsetup _).symm
  oneHot := haccepted.oneHot

end SameSetup

/-! The insertions leave the other tables alone. -/

theorem insertBallot_sameSetup (db : Database) (pending : PendingBallot) :
    db.SameSetup (insertBallot db pending) := ⟨rfl, rfl, rfl, rfl⟩

@[simp] theorem insertBallot_tallies (db : Database) (pending : PendingBallot) :
    (insertBallot db pending).tallies = db.tallies := rfl

@[simp] theorem insertBallot_tallyEntries (db : Database) (pending : PendingBallot) :
    (insertBallot db pending).tallyEntries = db.tallyEntries := rfl

theorem insertBallot_ballots (db : Database) (pending : PendingBallot) :
    (insertBallot db pending).castEncryptedBallots.rows =
      db.castEncryptedBallots.rows ++
        [castEncryptedBallotRow pending db.castEncryptedBallots.nextval] := rfl

def newEntries (db : Database) (pending : PendingBallot) : List CastEncryptedBallotEntryRow :=
  serialRows (castEncryptedBallotEntryRow db.castEncryptedBallots.nextval)
    db.castEncryptedBallotEntries.nextval pending.ballot.encryptedBallotEntries

theorem insertBallot_entries (db : Database) (pending : PendingBallot) :
    (insertBallot db pending).castEncryptedBallotEntries.rows =
      db.castEncryptedBallotEntries.rows ++ newEntries db pending :=
  SerialTable.insertAll_rows _ _ _ _

theorem castEncryptedBallotId_of_mem_newEntries {db : Database} {pending : PendingBallot}
    {entry : CastEncryptedBallotEntryRow} (hentry : entry ∈ newEntries db pending) :
    entry.castEncryptedBallotId = db.castEncryptedBallots.nextval := by
  obtain ⟨_, _, _, _, rfl⟩ := exists_of_mem_serialRows _ hentry
  rfl

theorem newEntries_candidateId (db : Database) (pending : PendingBallot) :
    (newEntries db pending).map CastEncryptedBallotEntryRow.candidateId =
      pending.ballot.encryptedBallotEntries.map fun entry => entry.candidateId.toInt :=
  map_serialRows (castEncryptedBallotEntryRow _) CastEncryptedBallotEntryRow.candidateId
    (fun entry => entry.candidateId.toInt) (fun _ _ => rfl) _ _

theorem newEntries_encryptedValue (db : Database) (pending : PendingBallot) :
    (newEntries db pending).map CastEncryptedBallotEntryRow.encryptedValue =
      pending.ballot.encryptedBallotEntries.map EncryptedBallotEntry.encryptedValue :=
  map_serialRows (castEncryptedBallotEntryRow _) CastEncryptedBallotEntryRow.encryptedValue
    EncryptedBallotEntry.encryptedValue (fun _ _ => rfl) _ _

end VotingSystem.Server
