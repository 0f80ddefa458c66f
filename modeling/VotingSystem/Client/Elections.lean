import VotingSystem.Client.Audit
import VotingSystem.Protos.Elections
import VotingSystem.Server.Pages

namespace VotingSystem.Client

open VotingSystem.Data VotingSystem.Crypto VotingSystem.Protos VotingSystem.Storage
open VotingSystem.Server

/-! `Client::getElections`, and the election `castBallot` looks up in its result. -/

section GetElections

variable (lib : Libraries) (config : Config)

def fetchElections (server : Bytes → Option Bytes) (lastId : Int32) :
    Option (List Election) := do
  let paginationEnc ← encodeMessage lib.encodeFails (⟨lastId⟩ : PaginationMetadata)
  let command ← sendCommand lib config .getElections paginationEnc
  let msgBuf ← server command
  let (type, data) ← getResponse lib config msgBuf
  if type ≠ ResponseType.elections.value then
    none
  else
    let elections ← Elections.decode data
    some elections.elections

/-- One request, from the id zero. -/
def getElections (server : Bytes → Option Bytes) : Option (List Election) :=
  fetchElections lib config server 0

end GetElections

def findElection (elections : List Election) (eid : Int32) : Option Election :=
  elections.find? fun election => election.id = eid

def honestServer (lib : Libraries) (config : Server.Config) (currTime : Int) (db : Database)
    (request : Bytes) : Option Bytes :=
  (processCommand lib config currTime db request).1

section Honest

variable {lib : Libraries} {client : Config} {config : Server.Config} {db : Database}
variable {currTime : Int}

/-- The client decodes the page that the server builds. -/
theorem fetchElections_honest
    (session : Session lib client config db (honestServer lib config currTime db))
    (lastId : Int32) :
    fetchElections lib client (honestServer lib config currTime db) lastId =
      (electionsMessage db ⟨lastId⟩).map fun message =>
        message.elections.map Election.received := by
  obtain ⟨command, htype, hdata, hsend, hauth⟩ :=
    session.sendCommand_authenticates .getElections (encode (⟨lastId⟩ : PaginationMetadata))
  have hhandler : handlerOf command.type = .getElections := by
    rw [htype]
    rfl
  have hserver : honestServer lib config currTime db (encode command) =
      Server.getElections lib config db ⟨lastId⟩ := by
    simp only [honestServer, processCommand, hauth db ⟨rfl, rfl, rfl⟩, dispatch, hhandler,
      hdata, PaginationMetadata.decode_encode]
  simp only [fetchElections, session.encodeMessage_eq, hsend, hserver, Option.bind_eq_bind,
    Option.bind_some]
  cases hmessage : electionsMessage db ⟨lastId⟩ with
  | none => simp [Server.getElections, hmessage]
  | some message =>
      obtain ⟨response, hfinish, hresponse⟩ :=
        session.getResponse_finishResponse .elections (encode message)
      simp [Server.getElections, hmessage, session.encodeMessage_eq, hfinish, hresponse]

theorem getElections_honest
    (session : Session lib client config db (honestServer lib config currTime db))
    {elections : List Election}
    (hget : getElections lib client (honestServer lib config currTime db) = some elections) :
    ∃ messages,
      (page ElectionRow.id paginationMax db.elections.rows 0).mapM (electionMessage db) =
          some messages ∧
        elections = messages.map Election.received := by
  rw [getElections, fetchElections_honest session] at hget
  obtain ⟨message, hmessage, rfl⟩ := Option.map_eq_some_iff.mp hget
  obtain ⟨messages, hmessages, hbuilt⟩ := Option.bind_eq_some_iff.mp hmessage
  simp only [Option.some.injEq] at hbuilt
  subst hbuilt
  exact ⟨messages, hmessages, rfl⟩

theorem exists_getElections
    (session : Session lib client config db (honestServer lib config currTime db))
    (hone : OneTallyPerElection db) :
    ∃ elections,
      getElections lib client (honestServer lib config currTime db) = some elections := by
  obtain ⟨message, hmessage⟩ := hone.exists_electionsMessage ⟨0⟩
  rw [getElections, fetchElections_honest session, hmessage]
  exact ⟨_, rfl⟩

end Honest

/-! All elections, or the first page of them. -/

/-- The client has what the server would report of every stored election, in the
order of their ids. -/
def ShowsAll (db : Database) (elections : List Election) : Prop :=
  ∃ messages,
    (orderBy ElectionRow.id db.elections.rows).mapM (electionMessage db) = some messages ∧
      elections = messages.map Election.received

/-- Whatever the id of a stored election, the client finds that election. -/
def FindsAll (db : Database) (elections : List Election) : Prop :=
  ∀ row ∈ db.elections.rows, ∃ message, electionMessage db row = some message ∧
    findElection elections (Int32.ofInt row.id) = some message.received

/-- All elections fit on the page that starts after the id zero. -/
structure OnePage (db : Database) : Prop where
  length_le : db.elections.rows.length ≤ paginationMax
  positive : ∀ row ∈ db.elections.rows, 0 < row.id

section Complete

variable {db : Database} {messages : List Election}

theorem showsAll_iff
    (hpage : (page ElectionRow.id paginationMax db.elections.rows 0).mapM
      (electionMessage db) = some messages) :
    ShowsAll db (messages.map Election.received) ↔ OnePage db := by
  constructor
  · intro hshows
    obtain ⟨all, hall, heq⟩ := hshows
    have hlength := congrArg List.length heq
    rw [List.length_map, List.length_map, mapM_length hall, mapM_length hpage,
      orderBy_length] at hlength
    obtain ⟨hshort, hpositive⟩ := of_length_le_page ElectionRow.id hlength.ge
    exact ⟨hshort, hpositive⟩
  · intro hone
    refine ⟨messages, ?_, rfl⟩
    rw [← page_eq_orderBy ElectionRow.id hone.length_le hone.positive, hpage]

/-- The first message with the id of a row of the page is that of the row. -/
theorem findElection_of_mem (hcolumns : db.IntColumns) {rows : List ElectionRow}
    (hrows : ∀ row ∈ rows, row ∈ db.elections.rows)
    (hmessages : rows.mapM (electionMessage db) = some messages) {row : ElectionRow}
    (hrow : row ∈ rows) :
    ∃ message, electionMessage db row = some message ∧
      findElection (messages.map Election.received) (Int32.ofInt row.id) =
        some message.received := by
  induction rows generalizing messages with
  | nil => contradiction
  | cons first rows ih =>
      simp only [List.mapM_cons, Option.bind_eq_bind, Option.bind_eq_some_iff,
        Option.pure_def, Option.some.injEq] at hmessages
      obtain ⟨message, hmessage, rest, hrest, rfl⟩ := hmessages
      have hfirst := hrows first (by simp)
      have hid : message.received.id = Int32.ofInt first.id :=
        (electionMessage_fields hmessage).1
      by_cases hsame : first = row
      · subst hsame
        exact ⟨message, hmessage, by simp [findElection, hid]⟩
      · have htail : row ∈ rows := by
          rcases List.mem_cons.mp hrow with heq | hmem
          · exact absurd heq.symm hsame
          · exact hmem
        obtain ⟨found, hfound, hfind⟩ :=
          ih (fun other hother => hrows other (by simp [hother])) hrest htail
        have hne : message.received.id ≠ Int32.ofInt row.id := by
          rw [hid]
          intro heq
          have hstored := hrows row (by simp [htail])
          exact hsame (db.find_election hfirst hstored
            (ofInt_inj (hcolumns.elections first hfirst).1
              (hcolumns.elections row hstored).1 heq))
        refine ⟨found, hfound, ?_⟩
        rw [findElection, List.map_cons, List.find?_cons_of_neg (by simpa using hne)]
        exact hfind

theorem findsAll_iff (hcolumns : db.IntColumns)
    (hpage : (page ElectionRow.id paginationMax db.elections.rows 0).mapM
      (electionMessage db) = some messages) :
    FindsAll db (messages.map Election.received) ↔ OnePage db := by
  constructor
  · intro hfinds
    have hcovers : db.elections.rows ⊆
        page ElectionRow.id paginationMax db.elections.rows 0 := by
      intro row hrow
      obtain ⟨message, hmessage, hfind⟩ := hfinds row hrow
      have hmem := List.mem_of_find?_eq_some hfind
      obtain ⟨shown, hshown, hreceived⟩ := List.mem_map.mp hmem
      obtain ⟨other, hother, hbuilt⟩ := exists_of_mem_mapM hpage hshown
      have hstored := mem_of_mem_page _ hother
      have hid : Int32.ofInt other.id = Int32.ofInt row.id :=
        calc
          Int32.ofInt other.id = shown.received.id := (electionMessage_fields hbuilt).1.symm
          _ = message.received.id := by rw [hreceived]
          _ = Int32.ofInt row.id := (electionMessage_fields hmessage).1
      obtain rfl := db.find_election hstored hrow
        (ofInt_inj (hcolumns.elections other hstored).1 (hcolumns.elections row hrow).1 hid)
      exact hother
    obtain ⟨hshort, hpositive⟩ := of_length_le_page ElectionRow.id
      (db.elections.rows_nodup.length_le_of_subset hcovers)
    exact ⟨hshort, hpositive⟩
  · intro hone row hrow
    have hordered := page_eq_orderBy ElectionRow.id hone.length_le hone.positive
    rw [hordered] at hpage
    exact findElection_of_mem hcolumns (fun other hother => (mem_orderBy _).mp hother) hpage
      ((mem_orderBy _).mpr hrow)

end Complete

/-- The client has every stored election, and finds each by its id, exactly when
they fit on one page. -/
theorem getElections_complete_iff {lib : Libraries} {client : Config}
    {config : Server.Config} {db : Database} {currTime : Int} (hcolumns : db.IntColumns)
    (session : Session lib client config db (honestServer lib config currTime db))
    {elections : List Election}
    (hget : getElections lib client (honestServer lib config currTime db) = some elections) :
    (ShowsAll db elections ↔ OnePage db) ∧ (FindsAll db elections ↔ OnePage db) := by
  obtain ⟨messages, hpage, rfl⟩ := getElections_honest session hget
  exact ⟨showsAll_iff hpage, findsAll_iff hcolumns hpage⟩

theorem getElections_complete_iff_small :
    ∃ elections,
      getElections SmallElection.referenceLib smallConfig
          (honestServer SmallElection.referenceLib SmallElection.reference.config 5
            votedDatabase) = some elections ∧
        (ShowsAll votedDatabase elections ↔ OnePage votedDatabase) ∧
          (FindsAll votedDatabase elections ↔ OnePage votedDatabase) := by
  obtain ⟨elections, hget⟩ := exists_getElections smallSession .nil
  exact ⟨elections, hget,
    getElections_complete_iff votedDatabase_intColumns smallSession hget⟩

/-! One election more than a page holds. -/

def crowdedDatabase : Database :=
  { votedDatabase with elections := crowdedElections }

theorem crowdedDatabase_registered :
    voterOfKey? crowdedDatabase smallConfig.clientPubKey = some 1 := by
  have hregistered := SmallElection.reference.voterOfKey?_voterKey
  unfold voterOfKey? at hregistered ⊢
  exact hregistered

def crowdedSession : Session SmallElection.referenceLib smallConfig
    SmallElection.reference.config crowdedDatabase
    (honestServer SmallElection.referenceLib SmallElection.reference.config 5
      crowdedDatabase) :=
  smallSessionOver crowdedDatabase crowdedDatabase_registered

theorem crowdedDatabase_intColumns : crowdedDatabase.IntColumns :=
  { votedDatabase_intColumns with
    elections := fun row hrow => (crowdedElections_columns row hrow).1 }

theorem crowdedDatabase_not_onePage : ¬OnePage crowdedDatabase := by
  intro hone
  have hlength := hone.length_le
  rw [show crowdedDatabase.elections.rows = _ from crowdedElections_rows, serialRows_length,
    List.length_replicate] at hlength
  exact absurd hlength (by decide)

/-- The last of 101 elections is neither listed nor found. -/
theorem crowded_elections_incomplete :
    crowdedDatabase.IntColumns ∧
      ∃ elections,
        getElections SmallElection.referenceLib smallConfig
            (honestServer SmallElection.referenceLib SmallElection.reference.config 5
              crowdedDatabase) = some elections ∧
          ¬ShowsAll crowdedDatabase elections ∧ ¬FindsAll crowdedDatabase elections := by
  obtain ⟨elections, hget⟩ := exists_getElections crowdedSession .nil
  obtain ⟨messages, hpage, rfl⟩ := getElections_honest crowdedSession hget
  refine ⟨crowdedDatabase_intColumns, _, hget, ?_, ?_⟩
  · rw [showsAll_iff hpage]
    exact crowdedDatabase_not_onePage
  · rw [findsAll_iff crowdedDatabase_intColumns hpage]
    exact crowdedDatabase_not_onePage

end VotingSystem.Client
