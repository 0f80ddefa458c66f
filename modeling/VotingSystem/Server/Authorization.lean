import VotingSystem.Server.ReportedTally
import VotingSystem.Server.SmallElection

namespace VotingSystem.Server

open VotingSystem.Data VotingSystem.Protos VotingSystem.Storage

/-! The voting rights `getElections` shows and those `castBallot` checks. -/

def authorizations (db : Database) (electionId voterGroupId : Int) :
    List ElectionsVoterGroupRow :=
  db.electionsVoterGroups.rows.filter fun evg =>
    evg.electionId = electionId ∧ evg.voterGroupId = voterGroupId

def Authorized (db : Database) (electionId voterGroupId : Int) : Prop :=
  authorizations db electionId voterGroupId ≠ []

def passesEligibility (db : Database) (currTime voterId electionId : Int) : Bool :=
  match voterGroupId? db voterId with
  | none => false
  | some voterGroupId =>
      (eligibilityRows db electionId currTime voterGroupId).length = 1

theorem passesEligibility_iff {db : Database} {currTime : Int} {voter : VoterRow}
    (hvoter : voter ∈ db.voters.rows) {election : ElectionRow}
    (helection : election ∈ db.elections.rows) (hstart : election.startTime ≤ currTime)
    (hend : currTime ≤ election.endTime) :
    passesEligibility db currTime voter.id election.id = true ↔
      (authorizations db election.id voter.voterGroupId).length = 1 := by
  have hgroup : voterGroupId? db voter.id = some voter.voterGroupId :=
    voterGroupId?_eq_some.mpr ⟨voter, hvoter, rfl, rfl⟩
  have hrows := eligibilityRows_length helection hstart hend voter.voterGroupId
  simp only [passesEligibility, hgroup, hrows, authorizations, decide_eq_true_eq]

/-! The query of `getElections` returns the key of the authorisation whose key is
the election's id. -/

theorem mem_authVoterGroups {db : Database} {electionId voterGroupId : Int}
    (helection : IntColumn electionId) (hgroup : IntColumn voterGroupId) :
    Int32.ofInt voterGroupId ∈ authVoterGroups db electionId ↔
      voterGroupId = electionId ∧ ∃ evg ∈ db.electionsVoterGroups.rows, evg.id = electionId := by
  unfold authVoterGroups
  rw [List.mem_map]
  constructor
  · intro hexists
    obtain ⟨evg, hevg, hsame⟩ := hexists
    simp only [mem_orderBy, List.mem_filter, decide_eq_true_eq] at hevg
    obtain ⟨hevg, hid⟩ := hevg
    rw [hid] at hsame
    exact ⟨(ofInt_inj helection hgroup hsame).symm, evg, hevg, hid⟩
  · intro hexists
    obtain ⟨rfl, evg, hevg, hid⟩ := hexists
    exact ⟨evg, by simp [hevg, hid], by rw [hid]⟩

/-- Shown, stored and enforced rights agree on an open election and a voter
exactly when the voter's group has at most one authorisation, and has one just
when its id is the election's and also the key of some authorisation. -/
theorem rights_agree_iff {db : Database} (hcolumns : db.IntColumns)
    {election : ElectionRow} (helection : election ∈ db.elections.rows) {voter : VoterRow}
    (hvoter : voter ∈ db.voters.rows) {currTime : Int}
    (hstart : election.startTime ≤ currTime) (hend : currTime ≤ election.endTime)
    {pagination : PaginationMetadata} {elections : Elections}
    (hpage : electionsMessage db pagination = some elections) {message : Election}
    (hmessage : message ∈ elections.elections)
    (hid : message.id = Int32.ofInt election.id) :
    ((Int32.ofInt voter.voterGroupId ∈ message.authorizedVoterGroupIds ↔
          Authorized db election.id voter.voterGroupId) ∧
        (Authorized db election.id voter.voterGroupId ↔
          passesEligibility db currTime voter.id election.id = true)) ↔
      (authorizations db election.id voter.voterGroupId).length ≤ 1 ∧
        ((authorizations db election.id voter.voterGroupId).length = 1 ↔
          voter.voterGroupId = election.id ∧
            ∃ evg ∈ db.electionsVoterGroups.rows, evg.id = election.id) := by
  obtain ⟨row, hrow, hbuilt⟩ := exists_row_of_mem_electionsMessage hpage hmessage
  obtain ⟨hrowId, _, hgroups, _⟩ := electionMessage_fields hbuilt
  have hsame : row = election := by
    apply db.find_election hrow helection
    exact ofInt_inj (hcolumns.elections row hrow).1
      (hcolumns.elections election helection).1 (hrowId.symm.trans hid)
  subst hsame
  have hshown := @mem_authVoterGroups db _ _ (hcolumns.elections row hrow).1
    (hcolumns.voters voter hvoter).2
  have hauthorized : Authorized db row.id voter.voterGroupId ↔
      0 < (authorizations db row.id voter.voterGroupId).length :=
    List.length_pos_iff.symm
  rw [hgroups, hshown, hauthorized, passesEligibility_iff hvoter hrow hstart hend]
  generalize (authorizations db row.id voter.voterGroupId).length = count
  constructor
  · intro hagree
    obtain ⟨hadvertised, henforced⟩ := hagree
    refine ⟨?_, henforced.symm.trans hadvertised.symm⟩
    by_contra hmany
    have := henforced.mp (by omega)
    omega
  · intro hcount
    obtain ⟨hatMost, hone⟩ := hcount
    have hpositive : 0 < count ↔ count = 1 := by omega
    exact ⟨hone.symm.trans hpositive.symm, hpositive⟩

/-! One row per table, with the voter and the authorisation in a chosen group. -/

def groupDatabase (voterGroupId : Int) : Database :=
  { SmallElection.reference.database with
    electionsVoterGroups := SerialTable.empty.insert fun id => ⟨id, 1, voterGroupId⟩
    voters := SerialTable.empty.insert fun id => ⟨id, voterGroupId, []⟩ }

def groupElection : Election where
  id := 1
  startTimeUtc := 0
  endTimeUtc := 10
  enabled := true
  allowWriteIn := false
  tally := .default
  authorizedVoterGroupIds := [1]
  candidates := [⟨1, [], []⟩]

theorem electionsMessage_groupDatabase (voterGroupId : Int) :
    electionsMessage (groupDatabase voterGroupId) .default = some ⟨[groupElection]⟩ := rfl

theorem groupDatabase_intColumns {voterGroupId : Int} (hgroup : IntColumn voterGroupId) :
    (groupDatabase voterGroupId).IntColumns where
  elections := by
    intro row hrow
    rw [List.mem_singleton.mp hrow]
    decide
  electionsVoterGroups := by
    intro row hrow
    have hone : IntColumn 1 := by decide
    rw [List.mem_singleton.mp hrow]
    exact ⟨hone, hone, hgroup⟩
  voters := by
    intro row hrow
    have hone : IntColumn 1 := by decide
    rw [List.mem_singleton.mp hrow]
    exact ⟨hone, hgroup⟩
  candidates := by
    intro row hrow
    rw [List.mem_singleton.mp hrow]
    decide
  castEncryptedBallots := fun row hrow => absurd hrow (List.not_mem_nil)
  castEncryptedBallotEntries := fun row hrow => absurd hrow (List.not_mem_nil)
  tallies := fun row hrow => absurd hrow (List.not_mem_nil)
  tallyEntries := fun row hrow => absurd hrow (List.not_mem_nil)

theorem rights_agree_iff_group_one :
    (((Int32.ofInt 1) ∈ groupElection.authorizedVoterGroupIds ↔
          Authorized (groupDatabase 1) 1 1) ∧
        (Authorized (groupDatabase 1) 1 1 ↔
          passesEligibility (groupDatabase 1) 5 1 1 = true)) ↔
      (authorizations (groupDatabase 1) 1 1).length ≤ 1 ∧
        ((authorizations (groupDatabase 1) 1 1).length = 1 ↔
          (1 : Int) = 1 ∧ ∃ evg ∈ (groupDatabase 1).electionsVoterGroups.rows, evg.id = 1) :=
  @rights_agree_iff (groupDatabase 1) (groupDatabase_intColumns (by decide))
    ⟨1, 0, 10, true, false⟩ (List.mem_singleton.mpr rfl) ⟨1, 1, []⟩
    (List.mem_singleton.mpr rfl) 5 (by decide) (by decide) .default _
    (electionsMessage_groupDatabase 1) _ (List.mem_singleton.mpr rfl) rfl

/-- An authorised group passes the check without being shown. -/
theorem group_two_not_shown :
    electionsMessage (groupDatabase 2) .default = some ⟨[groupElection]⟩ ∧
      Authorized (groupDatabase 2) 1 2 ∧
      passesEligibility (groupDatabase 2) 5 1 1 = true ∧
      Int32.ofInt 2 ∉ groupElection.authorizedVoterGroupIds :=
  ⟨rfl, by simp [Authorized, authorizations, groupDatabase], rfl, by decide⟩

end VotingSystem.Server
