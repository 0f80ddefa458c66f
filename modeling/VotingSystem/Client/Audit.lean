import VotingSystem.Client.Client
import VotingSystem.Server.Pages
import VotingSystem.Server.Secrecy
import VotingSystem.Server.TallyTiming

namespace VotingSystem.Client

open VotingSystem.Data VotingSystem.Crypto VotingSystem.Protos VotingSystem.Storage
open VotingSystem.Server

/-! `verifyTallyEncryption` against the tally of the server. -/

structure SameBallots (db db' : Database) : Prop where
  voters : db'.voters = db.voters
  ballots : db'.castEncryptedBallots = db.castEncryptedBallots
  entries : db'.castEncryptedBallotEntries = db.castEncryptedBallotEntries

theorem SameBallots.encryptedBallotsMessage_eq {db db' : Database}
    (hsame : SameBallots db db') (request : CastEncryptedBallotsRequest) :
    encryptedBallotsMessage db' request = encryptedBallotsMessage db request := by
  have hmessage : castEncryptedBallotMessage db' request.electionId =
      castEncryptedBallotMessage db request.electionId := by
    funext row
    simp only [castEncryptedBallotMessage, ballotEntryRows, hsame.entries]
  simp only [encryptedBallotsMessage, electionBallots, hsame.ballots, hmessage]

/-- An honest client and an honest server, with no ballot committed while they
talk. -/
structure Session (lib : Libraries) (client : Config) (config : Server.Config)
    (db : Database) (server : Bytes → Option Bytes) where
  clientKey : RsaKeyPair lib.wolf
  serverKey : RsaKeyPair lib.wolf
  paillierKey : KeyPair
  voterId : Int
  client_pubKey : client.clientPubKey = clientKey.pubKey
  client_privKey : client.clientPrivKey = clientKey.privKey
  config_pubKey : config.pubKey = serverKey.pubKey
  config_privKey : config.privKey = serverKey.privKey
  config_paillier : config.paillierPubKey = pubHex paillierKey.modulus
  server_known : client.serverPubKey = config.pubKey
  paillier_known : client.serverPaillierPubKey = config.paillierPubKey
  registered : voterOfKey? db client.clientPubKey = some voterId
  encodes : ∀ bytes, lib.encodeFails bytes = false
  answers : ∀ request, ∃ currTime db', SameBallots db db' ∧
    server request = (processCommand lib config currTime db' request).1

namespace Session

variable {lib : Libraries} {client : Config} {config : Server.Config} {db : Database}
variable {server : Bytes → Option Bytes} (session : Session lib client config db server)

include session

theorem encodeMessage_eq {α : Type} [Message α] (message : α) :
    encodeMessage lib.encodeFails message = some (encode message) :=
  encodeMessage_eq_some.mpr ⟨session.encodes _, rfl⟩

theorem sendCommand_authenticates (commandType : CommandType) (data : Bytes) :
    ∃ command : Command, command.type = commandType.value ∧ command.data = data ∧
      sendCommand lib client commandType data = some (encode command) ∧
      ∀ db', SameBallots db db' →
        authenticate lib db' (encode command) = .ok (command, session.voterId) := by
  obtain ⟨signature, hsign, _⟩ :=
    session.clientKey.rsaSign_payload (typeAndData commandType.value data)
  refine ⟨⟨commandType.value, data, client.clientPubKey, signature⟩, rfl, rfl, ?_, ?_⟩
  · rw [sendCommand, session.client_privKey, hsign]
    exact session.encodeMessage_eq _
  · intro db' hsame
    refine authenticate_eq_ok.mpr ⟨Command.decode_encode _, ?_, ?_⟩
    · rw [voterOfKey?, hsame.voters]
      exact session.registered
    · rw [session.client_pubKey]
      exact session.clientKey.rsaVerify_of_rsaSign hsign _

theorem getResponse_finishResponse (type : ResponseType) (data : Bytes) :
    ∃ bytes, finishResponse lib config type data = some bytes ∧
      getResponse lib client bytes = some (type.value, data) := by
  obtain ⟨signature, hsign, _⟩ :=
    session.serverKey.rsaSign_payload (typeAndData type.value data)
  have hverify := session.serverKey.rsaVerify_of_rsaSign hsign (typeAndData type.value data)
  refine ⟨encode (⟨type.value, data, config.pubKey, signature⟩ : Response), ?_, ?_⟩
  · rw [finishResponse, session.config_privKey, hsign]
    exact session.encodeMessage_eq _
  · rw [← session.config_pubKey] at hverify
    simp [getResponse, session.server_known, hverify]

/-- A request for a page, the command that carries it and the response to it. -/
theorem exchange (electionId lastId : Int32) :
    ∃ command : Command,
      command.data = encode (⟨⟨lastId⟩, electionId⟩ : CastEncryptedBallotsRequest) ∧
        sendCommand lib client .getEncryptedBallots command.data = some (encode command) ∧
        ∃ response,
          getResponse lib client response =
              some (ResponseType.castEncryptedBallots.value,
                encode (encryptedBallotsMessage db ⟨⟨lastId⟩, electionId⟩)) ∧
            ∀ currTime db', SameBallots db db' →
              processCommand lib config currTime db' (encode command) =
                (some response, db') := by
  obtain ⟨command, htype, hdata, hsend, hauth⟩ :=
    session.sendCommand_authenticates .getEncryptedBallots
      (encode (⟨⟨lastId⟩, electionId⟩ : CastEncryptedBallotsRequest))
  have hhandler : handlerOf command.type = .getEncryptedBallots := by
    rw [htype]
    rfl
  obtain ⟨response, hfinish, hresponse⟩ :=
    session.getResponse_finishResponse .castEncryptedBallots
      (encode (encryptedBallotsMessage db ⟨⟨lastId⟩, electionId⟩))
  refine ⟨command, hdata, ?_, response, hresponse, ?_⟩
  · rw [hdata]
    exact hsend
  · intro currTime db' hsame
    simp only [processCommand, hauth db' hsame, dispatch, hhandler, hdata,
      CastEncryptedBallotsRequest.decode_encode, getEncryptedBallots,
      hsame.encryptedBallotsMessage_eq, session.encodeMessage_eq, Option.bind_eq_bind,
      Option.bind_some, hfinish]

theorem fetchBallots_eq (electionId lastId : Int32) :
    fetchBallots lib client server electionId lastId =
      some (encryptedBallotsMessage db ⟨⟨lastId⟩, electionId⟩).castEncryptedBallots := by
  obtain ⟨command, hdata, hsend, response, hresponse, hprocess⟩ :=
    session.exchange electionId lastId
  obtain ⟨currTime, db', hsame, hserver⟩ := session.answers (encode command)
  have hanswer : server (encode command) = some response := by
    rw [hserver, hprocess currTime db' hsame]
  rw [hdata] at hsend
  simp [fetchBallots, session.encodeMessage_eq, hsend, hanswer, hresponse]

end Session

/-! The pages of an election together. -/

section Pages

variable {db : Database}

theorem candidateCiphertexts_append (candidateId : Int32)
    (cebs cebs' : List CastEncryptedBallot) :
    candidateCiphertexts candidateId (cebs ++ cebs') =
      candidateCiphertexts candidateId cebs ++ candidateCiphertexts candidateId cebs' :=
  List.flatMap_append

theorem candidateCiphertexts_map (candidateId electionId : Int32)
    (rows : List CastEncryptedBallotRow) :
    candidateCiphertexts candidateId (rows.map (castEncryptedBallotMessage db electionId)) =
      rows.flatMap fun row =>
        candidateCiphertexts candidateId [castEncryptedBallotMessage db electionId row] := by
  simp [candidateCiphertexts, List.flatMap_map]

/-- The loop of the client follows the pages of the table. -/
theorem collectCiphertexts_eq (hcolumns : db.IntColumns) {electionId : Int32}
    {fetch : Int32 → Option (List CastEncryptedBallot)}
    (hfetch : ∀ lastId, fetch lastId =
      some (encryptedBallotsMessage db ⟨⟨lastId⟩, electionId⟩).castEncryptedBallots)
    (candidateId : Int32) (fuel : Nat) {last : Int} (hlast : IntColumn last) :
    collectCiphertexts fetch candidateId fuel (Int32.ofInt last) =
      (collectPages CastEncryptedBallotRow.id
        (fun last => some (page CastEncryptedBallotRow.id paginationMax
          (electionBallots db electionId.toInt) last)) fuel last).map fun rows =>
            candidateCiphertexts candidateId
              (rows.map (castEncryptedBallotMessage db electionId)) := by
  induction fuel generalizing last with
  | zero => rfl
  | succ fuel ih =>
      simp only [collectCiphertexts, collectPages, hfetch, encryptedBallotsMessage,
        toInt_ofInt hlast, Option.bind_eq_bind, Option.bind_some, List.getLast?_map]
      cases hrow : (page CastEncryptedBallotRow.id paginationMax
          (electionBallots db electionId.toInt) last).getLast? with
      | none => simp [List.getLast?_eq_none_iff.mp hrow]
      | some row =>
          have hballot : row ∈ db.castEncryptedBallots.rows :=
            List.mem_of_mem_filter (mem_of_mem_page _ (List.mem_of_getLast? hrow))
          have hid := (hcolumns.castEncryptedBallots row hballot).1
          simp only [Option.map_some, castEncryptedBallotMessage, ih hid]
          cases collectPages CastEncryptedBallotRow.id _ fuel row.id with
          | none => rfl
          | some rest => simp [candidateCiphertexts_append]

theorem candidateCiphertexts_message_perm (hcolumns : db.IntColumns)
    (electionId candidateId : Int32) (row : CastEncryptedBallotRow) :
    (candidateCiphertexts candidateId [castEncryptedBallotMessage db electionId row]).Perm
      (((entriesOf db row.id).filter fun entry =>
        entry.candidateId = candidateId.toInt).map
          CastEncryptedBallotEntryRow.encryptedValue) := by
  have hsame : ∀ entry ∈ entriesOf db row.id,
      (ballotEntry entry).candidateId = candidateId ↔
        entry.candidateId = candidateId.toInt := by
    intro entry hentry
    have hcolumn := (hcolumns.castEncryptedBallotEntries entry
      (List.mem_of_mem_filter hentry)).2.2
    constructor
    · intro hid
      rw [← hid]
      exact (toInt_ofInt hcolumn).symm
    · intro hid
      rw [ballotEntry, hid, Int32.ofInt_toInt]
  have hordered := orderBy_perm CastEncryptedBallotEntryRow.candidateId (entriesOf db row.id)
  have hvalues : candidateCiphertexts candidateId
      [castEncryptedBallotMessage db electionId row] =
        ((orderBy CastEncryptedBallotEntryRow.candidateId (entriesOf db row.id)).filter
          fun entry => entry.candidateId = candidateId.toInt).map
            CastEncryptedBallotEntryRow.encryptedValue := by
    simp only [candidateCiphertexts, List.flatMap_cons, List.flatMap_nil, List.append_nil,
      castEncryptedBallotMessage, List.filter_map, List.map_map]
    congr 1
    apply List.filter_congr
    intro entry hentry
    have hiff := hsame entry (hordered.mem_iff.mp hentry)
    simp [hiff]
  rw [hvalues]
  exact (hordered.filter _).map _

/-- The ciphertexts for a candidate over all ballots stored for an election. -/
def storedCiphertexts (db : Database) (electionId candidateId : Int) : List Bytes :=
  (electionBallots db electionId).flatMap fun ballot =>
    ((entriesOf db ballot.id).filter fun entry => entry.candidateId = candidateId).map
      CastEncryptedBallotEntryRow.encryptedValue

/-- The ballots of an election, page by page, hold every ciphertext stored for a
candidate. -/
theorem collectCiphertexts_stored (hcolumns : db.IntColumns)
    (hpositive : ∀ ballot ∈ db.castEncryptedBallots.rows, 0 < ballot.id)
    (electionId candidateId : Int32) {fetch : Int32 → Option (List CastEncryptedBallot)}
    (hfetch : ∀ lastId, fetch lastId =
      some (encryptedBallotsMessage db ⟨⟨lastId⟩, electionId⟩).castEncryptedBallots)
    {fuel : Nat} (hfuel : db.castEncryptedBallots.rows.length < fuel) :
    ∃ ciphertexts, collectCiphertexts fetch candidateId fuel 0 = some ciphertexts ∧
      ciphertexts.Perm (storedCiphertexts db electionId.toInt candidateId.toInt) := by
  have hlast : (electionBallots db electionId.toInt).filter (fun row => 0 < row.id) =
      electionBallots db electionId.toInt := by
    apply List.filter_eq_self.mpr
    intro row hrow
    simpa using hpositive row (List.mem_of_mem_filter hrow)
  have hshort : (electionBallots db electionId.toInt).length < fuel :=
    (List.length_filter_le _ _).trans_lt hfuel
  have hpages := @collectPages_page _ CastEncryptedBallotRow.id paginationMax (by decide)
    (electionBallots db electionId.toInt) (electionBallots_nodup db electionId.toInt) 0 fuel
    (by rwa [hlast])
  have hcollect := collectCiphertexts_eq hcolumns hfetch candidateId fuel
    (by decide : IntColumn 0)
  rw [hpages, Option.map_some, hlast] at hcollect
  refine ⟨_, hcollect, ?_⟩
  rw [candidateCiphertexts_map]
  exact (orderBy_perm _ _).flatMap fun ballot _ =>
    candidateCiphertexts_message_perm hcolumns electionId candidateId ballot

theorem storedCiphertexts_perm {config : Server.Config}
    (hsound : SoundStore config db) {candidate : CandidateRow}
    (hcandidate : candidate ∈ db.candidates.rows) :
    (storedCiphertexts db candidate.electionId candidate.id).Perm
      (candidateSelection db candidate.electionId candidate.id) := by
  rw [candidateSelection_eq hcandidate, storedCiphertexts, ← List.map_flatMap]
  exact (hsound.ballot_entries_perm hcandidate).map _

/-- The ballots of an election, page by page, hold for a candidate what the tally
selects. -/
theorem collectCiphertexts_perm {config : Server.Config} (hsound : SoundStore config db)
    (hcolumns : db.IntColumns)
    (hpositive : ∀ ballot ∈ db.castEncryptedBallots.rows, 0 < ballot.id)
    {candidate : CandidateRow} (hcandidate : candidate ∈ db.candidates.rows)
    {electionId candidateId : Int32} (helection : electionId.toInt = candidate.electionId)
    (hid : candidateId.toInt = candidate.id)
    {fetch : Int32 → Option (List CastEncryptedBallot)}
    (hfetch : ∀ lastId, fetch lastId =
      some (encryptedBallotsMessage db ⟨⟨lastId⟩, electionId⟩).castEncryptedBallots)
    {fuel : Nat} (hfuel : db.castEncryptedBallots.rows.length < fuel) :
    ∃ ciphertexts, collectCiphertexts fetch candidateId fuel 0 = some ciphertexts ∧
      ciphertexts.Perm (candidateSelection db candidate.electionId candidate.id) := by
  obtain ⟨ciphertexts, hcollect, hperm⟩ := collectCiphertexts_stored hcolumns hpositive
    electionId candidateId hfetch hfuel
  rw [helection, hid] at hperm
  exact ⟨ciphertexts, hcollect, hperm.trans (storedCiphertexts_perm hsound hcandidate)⟩

end Pages

/-- In every reachable state the audit of a candidate multiplies the ciphertexts
of its tally, in some order, and so finds the same product. -/
theorem audit_recomputes_sum {lib : Libraries} {client : Config} {config : Server.Config}
    {server : Bytes → Option Bytes} {start : Database} {now : Int} {world : TallyWorld}
    (hballots : start.castEncryptedBallots.rows = [])
    (hentries : start.castEncryptedBallotEntries.rows = [])
    (hnextval : 0 < start.castEncryptedBallots.nextval)
    (hrun : Reaches (TallyStep config) ⟨start, now, [], []⟩ world)
    (hcolumns : world.db.IntColumns)
    (session : Session lib client config world.db server)
    {candidate : CandidateRow} (hcandidate : candidate ∈ world.db.candidates.rows)
    {fuel : Nat} (hfuel : world.db.castEncryptedBallots.rows.length < fuel) :
    (∃ ciphertexts,
      collectCiphertexts
          (fetchBallots lib client server (Int32.ofInt candidate.electionId))
          (Int32.ofInt candidate.id) fuel 0 = some ciphertexts ∧
        ciphertexts.Perm
          (candidateSelection world.db candidate.electionId candidate.id)) ∧
      (∀ ctexts ctexts' : List Bytes, ctexts.Perm ctexts' →
        paillierSum ctexts client.serverPaillierPubKey =
            paillierSum ctexts' config.paillierPubKey ∧
          (paillierSum ctexts client.serverPaillierPubKey).length = pCiphertextMaxLen) ∧
      verifyTallyEncryption lib client server (Int32.ofInt candidate.electionId)
          (Int32.ofInt candidate.id)
          (paillierSum (candidateSelection world.db candidate.electionId candidate.id)
            config.paillierPubKey) fuel = true := by
  have hinitial : SoundWorld config ⟨start, now, [], []⟩ :=
    ⟨.of_empty hballots hentries, by simp⟩
  have hsound := (hinitial.run hrun).sound
  have hpositive : PositiveIds world.db :=
    .run ⟨hnextval, by simp [hballots]⟩ hrun
  obtain ⟨hcandidateId, helectionId⟩ := hcolumns.candidates candidate hcandidate
  obtain ⟨ciphertexts, hcollect, hperm⟩ := collectCiphertexts_perm hsound hcolumns
    hpositive.ballots hcandidate (toInt_ofInt helectionId) (toInt_ofInt hcandidateId)
    (session.fetchBallots_eq (Int32.ofInt candidate.electionId)) hfuel
  have hlength : ∀ ctexts : List Bytes,
      (paillierSum ctexts config.paillierPubKey).length = pCiphertextMaxLen := by
    intro ctexts
    rw [session.config_paillier]
    exact paillierSum_length session.paillierKey.n_lt ctexts
  refine ⟨⟨ciphertexts, hcollect, hperm⟩, fun ctexts ctexts' hsame => ?_, ?_⟩
  · rw [session.paillier_known]
    exact ⟨paillierSum_perm hsame _, hlength ctexts⟩
  · have htake := fun ctexts => List.take_of_length_le (hlength ctexts).le
    simp only [verifyTallyEncryption, hcollect, session.paillier_known, htake,
      hlength, paillierSum_perm hperm, decide_true, Bool.and_self]

/-! The voter of the small election audits its tally. -/

def smallConfig : Config where
  clientPubKey := (Transparent.keyPair 1).pubKey
  clientPrivKey := (Transparent.keyPair 1).privKey
  serverPubKey := (Transparent.keyPair 0).pubKey
  serverPaillierPubKey := pubHex KeyPair.reference.modulus

def smallServer (request : Bytes) : Option Bytes :=
  (processCommand SmallElection.referenceLib SmallElection.reference.config 5
    votedDatabase request).1

def smallSession : Session SmallElection.referenceLib smallConfig
    SmallElection.reference.config votedDatabase smallServer where
  clientKey := Transparent.keyPair 1
  serverKey := Transparent.keyPair 0
  paillierKey := .reference
  voterId := 1
  client_pubKey := rfl
  client_privKey := rfl
  config_pubKey := rfl
  config_privKey := rfl
  config_paillier := rfl
  server_known := rfl
  paillier_known := rfl
  registered := SmallElection.reference.voterOfKey?_voterKey
  encodes := fun _ => rfl
  answers := fun _ => ⟨5, votedDatabase, ⟨rfl, rfl, rfl⟩, rfl⟩

/-- The same two parties over other tables. -/
def smallSessionOver (db : Database) (hregistered : voterOfKey? db smallConfig.clientPubKey =
    some 1) :
    Session SmallElection.referenceLib smallConfig SmallElection.reference.config db
      fun request => (processCommand SmallElection.referenceLib
        SmallElection.reference.config 5 db request).1 where
  clientKey := Transparent.keyPair 1
  serverKey := Transparent.keyPair 0
  paillierKey := .reference
  voterId := 1
  client_pubKey := rfl
  client_privKey := rfl
  config_pubKey := rfl
  config_privKey := rfl
  config_paillier := rfl
  server_known := rfl
  paillier_known := rfl
  registered := hregistered
  encodes := fun _ => rfl
  answers := fun _ => ⟨5, db, ⟨rfl, rfl, rfl⟩, rfl⟩

/-! Two voters choose one candidate each, and the first of them audits. -/

theorem intColumns_insertPair {db : Database} (hcolumns : db.IntColumns)
    (hnextval : IntColumn db.castEncryptedBallots.nextval) {voterId : Int}
    (hvoter : IntColumn voterId) (hfirst : IntColumn db.castEncryptedBallotEntries.nextval)
    (hsecond : IntColumn (db.castEncryptedBallotEntries.nextval + 1)) (first second : UInt64)
    (signature : Bytes) :
    (insertBallot db ((pairStrategy first second).pending [] 5 voterId signature)).IntColumns := by
  have hcastAt : IntColumn 5 := by decide
  refine intColumns_insertBallot hcolumns hnextval hvoter hcastAt ?_
  intro entry hentry
  simp only [newEntries, Strategy.pending, Strategy.ballot, pairStrategy, List.map_cons,
    List.map_nil, serialRows, List.mem_cons, List.not_mem_nil, or_false] at hentry
  rcases hentry with rfl | rfl
  · exact hfirst
  · exact hsecond

/-- The ballot of the second voter. -/
def otherPending : PendingBallot :=
  (pairStrategy 1 0).pending [] 5 2 (Transparent.signature 2 256 [])

def otherState : Database :=
  insertBallot pairDatabase otherPending

def bothState : Database :=
  insertBallot otherState (pairPending 0 1)

def secondCandidate : CandidateRow :=
  ⟨2, 1, [], [0]⟩

theorem otherPending_accepted :
    Accepted SmallElection.reference.config pairDatabase otherPending := by
  have hadmitted : (pairStrategy 1 0).Admitted pairDatabase 5 2 :=
    pair_admitted rfl rfl ⟨_, List.mem_cons_of_mem _ List.mem_cons_self, rfl, rfl⟩
  exact pairStrategy_accepted oneHot_first hadmitted _

theorem otherState_intColumns : otherState.IntColumns :=
  intColumns_insertPair pairDatabase_intColumns (by decide) (by decide) (by decide) (by decide) _ _
    _

theorem otherState_registered : voterOfKey? otherState smallConfig.clientPubKey = some 1 := by
  have hvoters : otherState.voters.rows =
      [⟨1, 1, smallConfig.clientPubKey⟩, ⟨2, 1, (Transparent.keyPair 2).pubKey⟩] := rfl
  have hother : (Transparent.keyPair 2).pubKey ≠ smallConfig.clientPubKey := by decide
  simp [voterOfKey?, hvoters, hother]

theorem bothState_intColumns : bothState.IntColumns :=
  intColumns_insertPair otherState_intColumns (by decide) (by decide) (by decide) (by decide)
    _ _ _

theorem bothState_registered : voterOfKey? bothState smallConfig.clientPubKey = some 1 :=
  otherState_registered

theorem bothState_steps :
    Reaches (TallyStep SmallElection.reference.config) ⟨pairDatabase, 5, [], []⟩
      ⟨bothState, 5, [], []⟩ := by
  have hagain : Accepted SmallElection.reference.config otherState (pairPending 0 1) :=
    (pairPending_accepted oneHot_second).of_sameSetup (insertBallot_sameSetup _ _)
  have hother := @reaches_insertBallot SmallElection.reference.config
    ⟨pairDatabase, 5, [], []⟩ _ otherPending_accepted rfl
  have hown := @reaches_insertBallot SmallElection.reference.config
    ⟨otherState, 5, [], []⟩ _ hagain rfl
  exact hother.trans hown

def pairServer (request : Bytes) : Option Bytes :=
  (processCommand SmallElection.referenceLib SmallElection.reference.config 5
    bothState request).1

theorem audit_recomputes_sum_pair :
    (∃ ciphertexts,
      collectCiphertexts
          (fetchBallots SmallElection.referenceLib smallConfig pairServer
            (Int32.ofInt secondCandidate.electionId))
          (Int32.ofInt secondCandidate.id) 3 0 = some ciphertexts ∧
        ciphertexts.Perm
          (candidateSelection bothState secondCandidate.electionId secondCandidate.id)) ∧
      (∀ ctexts ctexts' : List Bytes, ctexts.Perm ctexts' →
        paillierSum ctexts smallConfig.serverPaillierPubKey =
            paillierSum ctexts' SmallElection.reference.config.paillierPubKey ∧
          (paillierSum ctexts smallConfig.serverPaillierPubKey).length =
            pCiphertextMaxLen) ∧
      verifyTallyEncryption SmallElection.referenceLib smallConfig pairServer
          (Int32.ofInt secondCandidate.electionId) (Int32.ofInt secondCandidate.id)
          (paillierSum
            (candidateSelection bothState secondCandidate.electionId secondCandidate.id)
            SmallElection.reference.config.paillierPubKey) 3 = true :=
  audit_recomputes_sum rfl rfl (by decide) bothState_steps bothState_intColumns
    (smallSessionOver bothState bothState_registered)
    (List.mem_cons_of_mem _ List.mem_cons_self) (by decide)

end VotingSystem.Client
