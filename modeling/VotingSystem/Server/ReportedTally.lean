import VotingSystem.Server.Queries

namespace VotingSystem.Server

open VotingSystem.Data VotingSystem.Protos VotingSystem.Storage

/-! What `getElections` reports of the tally tables. -/

theorem tallyRows_eq (db : Database) (electionId : Int) :
    tallyRows db electionId =
      orderBy TallyEntryRow.candidateId
        (db.tallyEntries.rows.filter fun entry =>
          db.tallies.rows.any fun tally =>
            decide (tally.id = entry.tallyId) && decide (tally.electionId = electionId)) := by
  unfold tallyRows
  congr 1
  apply map_fst_filter_leftJoin
  intro entry _
  exact db.tallies.filter_key_length_le entry.tallyId

theorem mem_tallyRows {db : Database} {electionId : Int} {entry : TallyEntryRow} :
    entry ∈ tallyRows db electionId ↔
      entry ∈ db.tallyEntries.rows ∧
        ∃ tally ∈ db.tallies.rows,
          tally.id = entry.tallyId ∧ tally.electionId = electionId := by
  rw [tallyRows_eq, mem_orderBy, List.mem_filter]
  simp

theorem electionMessage_fields {db : Database} {row : ElectionRow} {message : Election}
    (hmessage : electionMessage db row = some message) :
    message.id = Int32.ofInt row.id ∧
      electionTally db row.id = some message.tally ∧
        message.authorizedVoterGroupIds = authVoterGroups db row.id ∧
          message.candidates = electionCandidates db row.id := by
  obtain ⟨tally, htally, hmessage⟩ := Option.bind_eq_some_iff.mp hmessage
  simp only [Option.some.injEq] at hmessage
  subst hmessage
  exact ⟨rfl, htally, rfl, rfl⟩

theorem exists_row_of_mem_electionsMessage {db : Database} {pagination : PaginationMetadata}
    {elections : Elections} (hpage : electionsMessage db pagination = some elections)
    {message : Election} (hmessage : message ∈ elections.elections) :
    ∃ row ∈ db.elections.rows, electionMessage db row = some message := by
  obtain ⟨messages, hmessages, helections⟩ := Option.bind_eq_some_iff.mp hpage
  simp only [Option.some.injEq] at helections
  subst helections
  obtain ⟨row, hrow, hbuilt⟩ := exists_of_mem_mapM hmessages hmessage
  exact ⟨row, mem_of_mem_page _ hrow, hbuilt⟩

def OneTallyPerElection (db : Database) : Prop :=
  (db.tallies.rows.map TallyRow.electionId).Nodup

namespace OneTallyPerElection

variable {db : Database} (hone : OneTallyPerElection db)

include hone

theorem eq_of_electionId_eq {tally tally' : TallyRow} (htally : tally ∈ db.tallies.rows)
    (htally' : tally' ∈ db.tallies.rows) (heq : tally.electionId = tally'.electionId) :
    tally = tally' :=
  List.inj_on_of_nodup_map hone htally htally' heq

theorem tallyId_eq {electionId : Int} {entry entry' : TallyEntryRow}
    (hentry : entry ∈ tallyRows db electionId) (hentry' : entry' ∈ tallyRows db electionId) :
    entry.tallyId = entry'.tallyId := by
  obtain ⟨_, tally, htally, hid, helection⟩ := mem_tallyRows.mp hentry
  obtain ⟨_, tally', htally', hid', helection'⟩ := mem_tallyRows.mp hentry'
  rw [← hid, ← hid',
    hone.eq_of_electionId_eq htally htally' (helection.trans helection'.symm)]

/-- The branch for multiple tally ids is not taken. -/
theorem exists_electionTally (electionId : Int) :
    ∃ tally, electionTally db electionId = some tally := by
  unfold electionTally
  split
  · exact ⟨_, rfl⟩
  · rename_i first rest hrows
    have hmem : ∀ entry ∈ first :: rest, entry ∈ tallyRows db electionId :=
      fun entry hentry => hrows ▸ hentry
    have hsame : ((first :: rest).all fun row => row.tallyId = first.tallyId) = true := by
      rw [List.all_eq_true]
      intro entry hentry
      simpa using hone.tallyId_eq (hmem entry hentry) (hmem first (by simp))
    exact ⟨_, if_pos hsame⟩

theorem exists_electionMessage (row : ElectionRow) :
    ∃ message, electionMessage db row = some message ∧
      message.id = Int32.ofInt row.id := by
  obtain ⟨tally, htally⟩ := hone.exists_electionTally row.id
  simp only [electionMessage, htally, Option.bind_eq_bind, Option.bind_some]
  exact ⟨_, rfl, rfl⟩

theorem exists_electionsMessage (pagination : PaginationMetadata) :
    ∃ elections, electionsMessage db pagination = some elections := by
  have hbuilt : ∀ row ∈ page ElectionRow.id paginationMax db.elections.rows
      pagination.lastId.toInt, ∃ message, electionMessage db row = some message :=
    fun row _ => (hone.exists_electionMessage row).imp fun _ h => h.1
  obtain ⟨messages, hmessages⟩ := exists_mapM_eq_some hbuilt
  exact ⟨⟨messages⟩, by simp [electionsMessage, hmessages]⟩

end OneTallyPerElection

end VotingSystem.Server
