import VotingSystem.Server.ReportedTally
import VotingSystem.Server.StoredBallots

namespace VotingSystem.Server

open VotingSystem.Data VotingSystem.Protos VotingSystem.Storage

/-! The pages of the three paginated handlers, requested one after another from
the last id of the page before. -/

section Fetch

variable (db : Database)

def fetchElections (lastId : Int) : Option (List Election) :=
  (electionsMessage db ⟨Int32.ofInt lastId⟩).map Elections.elections

def fetchVoters (lastId : Int) : Option (List Voter) :=
  some (votersMessage db ⟨Int32.ofInt lastId⟩).voters

def fetchEncryptedBallots (electionId : Int32) (lastId : Int) :
    Option (List CastEncryptedBallot) :=
  some (encryptedBallotsMessage db ⟨⟨Int32.ofInt lastId⟩, electionId⟩).castEncryptedBallots

end Fetch

theorem mapM_some {α β : Type} (f : α → β) (rows : List α) :
    (rows.mapM fun row => some (f row)) = some (rows.map f) :=
  List.mapM_pure

theorem fetchElections_eq {db : Database} {last : Int} (hlast : IntColumn last) :
    fetchElections db last =
      (page ElectionRow.id paginationMax db.elections.rows last).mapM
        (electionMessage db) := by
  simp only [fetchElections, electionsMessage, toInt_ofInt hlast, Option.bind_eq_bind]
  cases (page ElectionRow.id paginationMax db.elections.rows last).mapM
    (electionMessage db) <;> rfl

theorem fetchVoters_eq {db : Database} {last : Int} (hlast : IntColumn last) :
    fetchVoters db last =
      (page VoterRow.id paginationMax db.voters.rows last).mapM
        fun row => some (voterMessage row) := by
  simp only [fetchVoters, votersMessage, toInt_ofInt hlast, mapM_some]

theorem fetchEncryptedBallots_eq {db : Database} {electionId : Int32} {last : Int}
    (hlast : IntColumn last) :
    fetchEncryptedBallots db electionId last =
      (page CastEncryptedBallotRow.id paginationMax
        (electionBallots db electionId.toInt) last).mapM
          fun row => some (castEncryptedBallotMessage db electionId row) := by
  simp only [fetchEncryptedBallots, encryptedBallotsMessage, toInt_ofInt hlast, mapM_some]

/-- Pages of messages built from rows with positive keys, in the range of the
column, hold the messages of all rows. -/
theorem collectPages_messages {Row Msg : Type} {column : Row → Int} {rows : List Row}
    (hnodup : (rows.map column).Nodup)
    (hkeys : ∀ row ∈ rows, IntColumn (column row) ∧ 0 < column row)
    {message : Row → Option Msg} {id : Msg → Int32}
    (hmessage : ∀ row ∈ rows, ∃ result, message row = some result ∧
      id result = Int32.ofInt (column row))
    {fetch : Int → Option (List Msg)}
    (hfetch : ∀ last, IntColumn last →
      fetch last = (page column paginationMax rows last).mapM message)
    {fuel : Nat} (hfuel : rows.length < fuel) :
    collectPages (fun result => (id result).toInt) fetch fuel 0 =
      (orderBy column rows).mapM message := by
  have hall : rows.filter (fun row => 0 < column row) = rows := by
    apply List.filter_eq_self.mpr
    intro row hrow
    simpa using (hkeys row hrow).2
  have hpages := @collectPages_page _ column paginationMax (by decide) rows hnodup 0 fuel
    (by rwa [hall])
  rw [hall] at hpages
  have hbuilt : ∀ row ∈ rows, IntColumn (column row) ∧
      ∃ result, message row = some result ∧ (id result).toInt = column row := by
    intro row hrow
    obtain ⟨result, hresult, hid⟩ := hmessage row hrow
    refine ⟨(hkeys row hrow).1, result, hresult, ?_⟩
    rw [hid, toInt_ofInt (hkeys row hrow).1]
  rw [collectPages_mapM column hbuilt hfetch fuel (by decide : IntColumn 0), hpages,
    Option.bind_some]

structure PositiveKeys (db : Database) : Prop where
  elections : ∀ row ∈ db.elections.rows, 0 < row.id
  voters : ∀ row ∈ db.voters.rows, 0 < row.id
  ballots : ∀ row ∈ db.castEncryptedBallots.rows, 0 < row.id

section Collect

variable {db : Database}

theorem collectPages_elections (hcolumns : db.IntColumns)
    (hpositive : ∀ row ∈ db.elections.rows, 0 < row.id) (hone : OneTallyPerElection db)
    {fuel : Nat} (hfuel : db.elections.rows.length < fuel) :
    collectPages (fun election => election.id.toInt) (fetchElections db) fuel 0 =
      (orderBy ElectionRow.id db.elections.rows).mapM (electionMessage db) :=
  collectPages_messages db.elections.keys_nodup
    (fun row hrow => ⟨(hcolumns.elections row hrow).1, hpositive row hrow⟩)
    (fun row _ => hone.exists_electionMessage row) (fun _ hlast => fetchElections_eq hlast)
    hfuel

theorem collectPages_voters (hcolumns : db.IntColumns)
    (hpositive : ∀ row ∈ db.voters.rows, 0 < row.id)
    {fuel : Nat} (hfuel : db.voters.rows.length < fuel) :
    collectPages (fun voter => voter.id.toInt) (fetchVoters db) fuel 0 =
      some ((orderBy VoterRow.id db.voters.rows).map voterMessage) := by
  have hkeys : ∀ row ∈ db.voters.rows, IntColumn row.id ∧ 0 < row.id :=
    fun row hrow => ⟨(hcolumns.voters row hrow).1, hpositive row hrow⟩
  have hpages := @collectPages_messages _ _ _ _ db.voters.keys_nodup hkeys
    (fun row => some (voterMessage row)) Voter.id (fun row _ => ⟨_, rfl, rfl⟩) _
    (fun _ hlast => fetchVoters_eq hlast) _ hfuel
  rwa [mapM_some] at hpages

theorem electionBallots_nodup (db : Database) (electionId : Int) :
    ((electionBallots db electionId).map CastEncryptedBallotRow.id).Nodup :=
  db.castEncryptedBallots.keys_nodup.sublist (List.filter_sublist.map _)

theorem collectPages_encryptedBallots (hcolumns : db.IntColumns)
    (hpositive : ∀ row ∈ db.castEncryptedBallots.rows, 0 < row.id) (electionId : Int32)
    {fuel : Nat} (hfuel : (electionBallots db electionId.toInt).length < fuel) :
    collectPages (fun ceb => ceb.id.toInt) (fetchEncryptedBallots db electionId) fuel 0 =
      some ((orderBy CastEncryptedBallotRow.id (electionBallots db electionId.toInt)).map
        (castEncryptedBallotMessage db electionId)) := by
  have hkeys : ∀ row ∈ electionBallots db electionId.toInt, IntColumn row.id ∧ 0 < row.id := by
    intro row hrow
    have hballot := List.mem_of_mem_filter hrow
    exact ⟨(hcolumns.castEncryptedBallots row hballot).1, hpositive row hballot⟩
  have hpages := @collectPages_messages _ _ _ _ (electionBallots_nodup db electionId.toInt)
    hkeys (fun row => some (castEncryptedBallotMessage db electionId row))
    CastEncryptedBallot.id (fun row _ => ⟨_, rfl, rfl⟩) _
    (fun _ hlast => fetchEncryptedBallots_eq hlast) _ hfuel
  rwa [mapM_some] at hpages

/-- The messages of all rows, each once and in increasing order of their keys. -/
def Enumerates {Row Msg : Type} (column : Row → Int) (rows : List Row)
    (message : Row → Option Msg) (collected : Option (List Msg)) : Prop :=
  ∃ ordered : List Row, ordered.Perm rows ∧
    (ordered.Pairwise fun left right => column left < column right) ∧
      ∃ messages, ordered.mapM message = some messages ∧ collected = some messages

/-- Requesting pages until an empty one comes back ends, and the pages of each
handler together enumerate its rows. -/
theorem pages_enumerate_rows (hcolumns : db.IntColumns) (hpositive : PositiveKeys db)
    (hone : OneTallyPerElection db) (electionId : Int32) {fuel : Nat}
    (helections : db.elections.rows.length < fuel) (hvoters : db.voters.rows.length < fuel)
    (hballots : (electionBallots db electionId.toInt).length < fuel) :
    Enumerates ElectionRow.id db.elections.rows (electionMessage db)
        (collectPages (fun election => election.id.toInt) (fetchElections db) fuel 0) ∧
      Enumerates VoterRow.id db.voters.rows (fun row => some (voterMessage row))
        (collectPages (fun voter => voter.id.toInt) (fetchVoters db) fuel 0) ∧
      Enumerates CastEncryptedBallotRow.id (electionBallots db electionId.toInt)
        (fun row => some (castEncryptedBallotMessage db electionId row))
        (collectPages (fun ceb => ceb.id.toInt) (fetchEncryptedBallots db electionId)
          fuel 0) := by
  refine ⟨?_, ?_, ?_⟩
  · have hmessages : ∀ row ∈ orderBy ElectionRow.id db.elections.rows,
        ∃ message, electionMessage db row = some message := fun row _ =>
      (hone.exists_electionMessage row).imp fun _ h => h.1
    obtain ⟨messages, hbuilt⟩ := exists_mapM_eq_some hmessages
    refine ⟨_, orderBy_perm _ _, orderBy_pairwise_lt _ db.elections.keys_nodup,
      messages, hbuilt, ?_⟩
    rw [collectPages_elections hcolumns hpositive.elections hone helections, hbuilt]
  · exact ⟨_, orderBy_perm _ _, orderBy_pairwise_lt _ db.voters.keys_nodup, _,
      mapM_some _ _, collectPages_voters hcolumns hpositive.voters hvoters⟩
  · exact ⟨_, orderBy_perm _ _,
      orderBy_pairwise_lt _ (electionBallots_nodup db electionId.toInt), _,
      mapM_some _ _,
      collectPages_encryptedBallots hcolumns hpositive.ballots electionId hballots⟩

end Collect

theorem votedDatabase_positiveKeys : PositiveKeys votedDatabase where
  elections := by
    intro row hrow
    rw [List.mem_singleton.mp hrow]
    decide
  voters := by
    intro row hrow
    rw [List.mem_singleton.mp hrow]
    decide
  ballots := by
    intro row hrow
    obtain rfl : row = castEncryptedBallotRow (SmallElection.referencePending []) 1 :=
      List.mem_singleton.mp hrow
    decide

/-! Tables of 101 rows, one more than a page holds. -/

def crowdedElections : SerialTable ElectionRow :=
  SerialTable.insertAll (fun (_ : Unit) id => ⟨id, 0, 10, true, false⟩) (by intros; rfl)
    .empty (List.replicate 101 ())

def crowdedVoters : SerialTable VoterRow :=
  SerialTable.insertAll (fun (_ : Unit) id => ⟨id, 1, SmallElection.reference.voterKey⟩)
    (by intros; rfl) .empty (List.replicate 101 ())

theorem castEncryptedBallotRow_key (pending : PendingBallot) (id : Int) :
    Keyed.key (castEncryptedBallotRow pending id) = id := rfl

def crowdedBallots : SerialTable CastEncryptedBallotRow :=
  SerialTable.insertAll castEncryptedBallotRow castEncryptedBallotRow_key .empty
    (List.replicate 101 (SmallElection.referencePending []))

def crowdedTables : Database :=
  { votedDatabase with
    elections := crowdedElections
    voters := crowdedVoters
    castEncryptedBallots := crowdedBallots }

theorem crowdedElections_rows :
    crowdedElections.rows =
      serialRows (fun (_ : Unit) id => (⟨id, 0, 10, true, false⟩ : ElectionRow)) 1
        (List.replicate 101 ()) :=
  SerialTable.insertAll_rows _ _ _ _

theorem crowdedVoters_rows :
    crowdedVoters.rows =
      serialRows
        (fun (_ : Unit) id => (⟨id, 1, SmallElection.reference.voterKey⟩ : VoterRow)) 1
        (List.replicate 101 ()) :=
  SerialTable.insertAll_rows _ _ _ _

theorem crowdedBallots_rows :
    crowdedBallots.rows =
      serialRows castEncryptedBallotRow 1
        (List.replicate 101 (SmallElection.referencePending [])) :=
  SerialTable.insertAll_rows _ _ _ _

theorem crowdedBallots_election :
    electionBallots crowdedTables (1 : Int32).toInt = crowdedBallots.rows := by
  apply List.filter_eq_self.mpr
  intro row hrow
  rw [show crowdedTables.castEncryptedBallots.rows = _ from crowdedBallots_rows] at hrow
  obtain ⟨pending, hpending, _, _, rfl⟩ := exists_of_mem_serialRows _ hrow
  rw [List.eq_of_mem_replicate hpending]
  rfl

theorem crowdedElections_columns : ∀ row ∈ crowdedElections.rows,
    (IntColumn row.id ∧ IntColumn row.startTime ∧ IntColumn row.endTime) ∧ 0 < row.id := by
  rw [crowdedElections_rows]
  decide

theorem crowdedVoters_columns : ∀ row ∈ crowdedVoters.rows,
    (IntColumn row.id ∧ IntColumn row.voterGroupId) ∧ 0 < row.id := by
  rw [crowdedVoters_rows]
  decide

theorem crowdedBallots_columns : ∀ row ∈ crowdedBallots.rows,
    (IntColumn row.id ∧ IntColumn row.voterId ∧ IntColumn row.castAt ∧
      IntColumn row.electionId) ∧ 0 < row.id := by
  rw [crowdedBallots_rows]
  decide

theorem crowdedTables_intColumns : crowdedTables.IntColumns :=
  { votedDatabase_intColumns with
    elections := fun row hrow => (crowdedElections_columns row hrow).1
    voters := fun row hrow => (crowdedVoters_columns row hrow).1
    castEncryptedBallots := fun row hrow => (crowdedBallots_columns row hrow).1 }

theorem crowdedTables_positiveKeys : PositiveKeys crowdedTables where
  elections := fun row hrow => (crowdedElections_columns row hrow).2
  voters := fun row hrow => (crowdedVoters_columns row hrow).2
  ballots := fun row hrow => (crowdedBallots_columns row hrow).2

theorem pages_enumerate_rows_crowded :
    (paginationMax < crowdedTables.elections.rows.length ∧
        paginationMax < crowdedTables.voters.rows.length ∧
          paginationMax < (electionBallots crowdedTables (1 : Int32).toInt).length) ∧
      Enumerates ElectionRow.id crowdedTables.elections.rows (electionMessage crowdedTables)
        (collectPages (fun election => election.id.toInt)
          (fetchElections crowdedTables) 102 0) ∧
      Enumerates VoterRow.id crowdedTables.voters.rows (fun row => some (voterMessage row))
        (collectPages (fun voter => voter.id.toInt) (fetchVoters crowdedTables) 102 0) ∧
      Enumerates CastEncryptedBallotRow.id (electionBallots crowdedTables (1 : Int32).toInt)
        (fun row => some (castEncryptedBallotMessage crowdedTables 1 row))
        (collectPages (fun ceb => ceb.id.toInt) (fetchEncryptedBallots crowdedTables 1)
          102 0) := by
  have helections : crowdedTables.elections.rows.length = 101 := by
    rw [show crowdedTables.elections.rows = _ from crowdedElections_rows, serialRows_length,
      List.length_replicate]
  have hvoters : crowdedTables.voters.rows.length = 101 := by
    rw [show crowdedTables.voters.rows = _ from crowdedVoters_rows, serialRows_length,
      List.length_replicate]
  have hballots : (electionBallots crowdedTables (1 : Int32).toInt).length = 101 := by
    rw [crowdedBallots_election, crowdedBallots_rows, serialRows_length,
      List.length_replicate]
  have hpage : paginationMax < 101 := by decide
  exact ⟨⟨hpage.trans_eq helections.symm, hpage.trans_eq hvoters.symm,
      hpage.trans_eq hballots.symm⟩,
    pages_enumerate_rows crowdedTables_intColumns crowdedTables_positiveKeys .nil 1
      (by omega) (by omega) (by omega)⟩

end VotingSystem.Server
