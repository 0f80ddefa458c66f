import VotingSystem.Client.Elections
import VotingSystem.Server.Atomicity
import VotingSystem.Server.BallotValidity
import VotingSystem.Server.Secrecy

namespace VotingSystem.Client

open VotingSystem.Data VotingSystem.Crypto VotingSystem.Protos VotingSystem.Storage
open VotingSystem.Server

/-! A vote for one candidate, from the elections the client received to the tables of
the server. -/

/-- One choice for each candidate, in the order the client received them. -/
def honestChoices (election : Election) (chosen : Nat)
    (blindings : Nat → PaillierLib.Blinding) : List Choice :=
  election.candidates.mapIdx fun idx candidate =>
    ⟨candidate.id, if idx = chosen then 1 else 0, blindings idx⟩

theorem map_mapIdx {α β γ : Type} (f : Nat → α → β) (g : β → γ) (items : List α) :
    (items.mapIdx f).map g = items.mapIdx fun idx item => g (f idx item) := by
  simp [List.mapIdx_eq_zipIdx_map, Function.comp_def]

theorem mapIdx_const {α β : Type} (f : α → β) (items : List α) :
    (items.mapIdx fun _ item => f item) = items.map f := by
  induction items with
  | nil => rfl
  | cons item items ih => rw [List.mapIdx_cons, ih, List.map_cons]

theorem oneHot_mapIdx {α : Type} {items : List α} {chosen : Nat}
    (hchosen : chosen < items.length) :
    OneHot (items.mapIdx fun idx _ => if idx = chosen then (1 : UInt64) else 0) where
  zero_or_one := by
    intro value hvalue
    obtain ⟨idx, _, rfl⟩ := List.mem_mapIdx.mp hvalue
    by_cases heq : idx = chosen <;> simp [heq]
  count_one := by
    induction items generalizing chosen with
    | nil => simp at hchosen
    | cons item items ih =>
        rw [List.mapIdx_cons]
        cases chosen with
        | zero =>
            have hnone : (items.mapIdx fun idx _ =>
                if idx + 1 = 0 then (1 : UInt64) else 0).count 1 = 0 := by
              rw [List.count_eq_zero]
              intro hmem
              obtain ⟨idx, _, heq⟩ := List.mem_mapIdx.mp hmem
              simp at heq
            rw [if_pos rfl, List.count_cons_self, hnone]
        | succ chosen =>
            have hrest := ih (by simpa using hchosen)
            simpa using hrest

section Decrypt

variable {client : Config} {config : Server.Config} {key : KeyPair}

/-- The server decrypts what the client entered. -/
theorem decryptEntry_encryptedBallotEntry (hkey : config.HoldsKey key)
    (hclient : client.serverPaillierPubKey = config.paillierPubKey) {choice : Choice}
    (hblinding : choice.blinding.factor.Coprime key.modulus.n) :
    decryptEntry config (encryptedBallotEntry client choice).encryptedValue =
      choice.choice := by
  have hround := @paillierDec_paillierEnc key.modulus key.n_large key.n_lt choice.choice
    choice.blinding hblinding
  have hlength : (paillierEnc choice.choice (pubHex key.modulus) choice.blinding).length =
      pCiphertextMaxLen := by
    rw [paillierEnc_eq key.n_lt, ciphertextBytes_length]
  unfold decryptEntry encryptedBallotEntry
  rw [hclient, hkey.pub, hkey.privP, hkey.privQ, List.take_of_length_le hlength.le]
  exact hround

theorem decrypted_encryptedBallot (hkey : config.HoldsKey key)
    (hclient : client.serverPaillierPubKey = config.paillierPubKey) (eid : Int32)
    {choices : List Choice}
    (hblindings : ∀ choice ∈ choices, choice.blinding.factor.Coprime key.modulus.n) :
    ((encryptedBallot client eid choices).encryptedBallotEntries.map fun entry =>
        decryptEntry config entry.encryptedValue) = choices.map Choice.choice := by
  rw [encryptedBallot, List.map_map]
  apply List.map_congr_left
  intro choice hchoice
  exact decryptEntry_encryptedBallotEntry hkey hclient (hblindings choice hchoice)

end Decrypt

/-! The candidates as the client received them. -/

theorem electionCandidates_ids {db : Database} (hcolumns : db.IntColumns)
    (electionId : Int) :
    (electionCandidates db electionId).map (fun candidate => candidate.id.toInt) =
      candidateIds db electionId := by
  have hnodup : ((db.candidates.rows.filter fun candidate =>
      candidate.electionId = electionId).map CandidateRow.id).Nodup :=
    db.candidates.keys_nodup.sublist (List.filter_sublist.map _)
  rw [candidateIds, orderBy_map id CandidateRow.id hnodup, electionCandidates, List.map_map]
  apply List.map_congr_left
  intro candidate hcandidate
  have hmem : candidate ∈ db.candidates.rows :=
    List.mem_of_mem_filter ((mem_orderBy _).mp hcandidate)
  exact toInt_ofInt (hcolumns.candidates candidate hmem).1

/-- A received election names the candidates that the server checks a ballot
against. -/
structure Received (db : Database) (election : Election) : Prop where
  candidates : election.candidates.map (fun candidate => candidate.id.toInt) =
    candidateIds db election.id.toInt

section Vote

variable {lib : Libraries} {client : Config} {config : Server.Config} {db : Database}
variable {election : Election} {chosen : Nat} {blindings : Nat → PaillierLib.Blinding}

theorem received_of_fetchElections {currTime : Int} (hcolumns : db.IntColumns)
    (session : Session lib client config db (honestServer lib config currTime db))
    {lastId : Int32} {elections : List Election}
    (hfetch : fetchElections lib client (honestServer lib config currTime db) lastId =
      some elections) (helection : election ∈ elections) : Received db election := by
  rw [fetchElections_honest session] at hfetch
  obtain ⟨page, hpage, rfl⟩ := Option.map_eq_some_iff.mp hfetch
  obtain ⟨message, hmessage, rfl⟩ := List.mem_map.mp helection
  obtain ⟨row, hrow, hbuilt⟩ := exists_row_of_mem_electionsMessage hpage hmessage
  obtain ⟨hid, _, _, hcandidates⟩ := electionMessage_fields hbuilt
  have hrowId : message.received.id.toInt = row.id := by
    rw [Election.received, hid, toInt_ofInt (hcolumns.elections row hrow).1]
  constructor
  rw [hrowId, ← electionCandidates_ids hcolumns row.id, ← hcandidates, Election.received,
    List.map_map]
  rfl

def honestPending (client : Config) (election : Election) (choices : List Choice)
    (voterId castAt : Int) (signature : Bytes) : PendingBallot where
  voterId := voterId
  castAt := castAt
  ballot := encryptedBallot client election.id choices
  commandData := encode (encryptedBallot client election.id choices)
  commandSignature := signature

theorem honestChoices_accepted {key : KeyPair} (hkey : config.HoldsKey key)
    (hclient : client.serverPaillierPubKey = config.paillierPubKey)
    (hreceived : Received db election) {voterId castAt voterGroupId : Int}
    (hgroup : voterGroupId? db voterId = some voterGroupId)
    (heligible : (eligibilityRows db election.id.toInt castAt voterGroupId).length = 1)
    (hchosen : chosen < election.candidates.length)
    (hblindings : ∀ idx, (blindings idx).factor.Coprime key.modulus.n) (signature : Bytes) :
    Accepted config db
      (honestPending client election (honestChoices election chosen blindings) voterId castAt
        signature) where
  decoded := EncryptedBallot.decode_encode _
  voter := by
    obtain ⟨voter, hvoter, hid, hvoterGroup⟩ := voterGroupId?_eq_some.mp hgroup
    exact ⟨voter, hvoter, hid, by rw [hvoterGroup]; exact heligible⟩
  candidates := by
    rw [honestPending, encryptedBallot, List.map_map, honestChoices, map_mapIdx]
    exact (mapIdx_const _ _).trans hreceived.candidates
  oneHot := by
    have hcoprime : ∀ choice ∈ honestChoices election chosen blindings,
        choice.blinding.factor.Coprime key.modulus.n := by
      intro choice hchoice
      obtain ⟨idx, _, rfl⟩ := List.mem_mapIdx.mp hchoice
      exact hblindings idx
    rw [honestPending, decrypted_encryptedBallot hkey hclient election.id hcoprime,
      honestChoices, map_mapIdx]
    exact oneHot_mapIdx hchosen

/-- The command of an honest vote is stored. -/
theorem castBallot_stores {server : Bytes → Option Bytes}
    (session : Session lib client config db server) {castTime : Int} {eid : Int32}
    {choices : List Choice}
    (haccepted : ∀ signature, Accepted config db
      ⟨session.voterId, castTime, encryptedBallot client eid choices,
        encode (encryptedBallot client eid choices), signature⟩) :
    ∃ command signature,
      castBallot lib client eid choices = some (encode command) ∧
        Stores lib config castTime db (encode command) command
          ⟨session.voterId, castTime, encryptedBallot client eid choices,
            encode (encryptedBallot client eid choices), signature⟩ := by
  obtain ⟨command, htype, hdata, hsend, hauth⟩ := session.sendCommand_authenticates
    .castBallot (encode (encryptedBallot client eid choices))
  refine ⟨command, command.signature, ?_, hauth db ⟨rfl, rfl, rfl⟩, ?_,
    haccepted command.signature, rfl, hdata.symm, rfl⟩
  · rw [castBallot, session.encodeMessage_eq]
    exact hsend
  · exact handlerOf_eq_castBallot_iff.mpr (.inr (.inr htype))

/-- An honest vote is stored as one ballot with the ciphertexts that were sent, and
answered with its receipt. -/
theorem honest_ballot_accepted {fetchTime castTime : Int} (hcolumns : db.IntColumns)
    (session : Session lib client config db (honestServer lib config fetchTime db))
    (hkey : config.HoldsKey session.paillierKey) {lastId : Int32} {elections : List Election}
    (hfetch : fetchElections lib client (honestServer lib config fetchTime db) lastId =
      some elections) (helection : election ∈ elections) {voterGroupId : Int}
    (hgroup : voterGroupId? db session.voterId = some voterGroupId)
    (heligible : (eligibilityRows db election.id.toInt castTime voterGroupId).length = 1)
    (hchosen : chosen < election.candidates.length)
    (hblindings : ∀ idx, (blindings idx).factor.Coprime session.paillierKey.modulus.n) :
    ∃ command ballot entries,
      castBallot lib client election.id (honestChoices election chosen blindings) =
          some command ∧
        (processCommand lib config castTime db command).2.castEncryptedBallots.rows =
          db.castEncryptedBallots.rows ++ [ballot] ∧
        ballot.voterId = session.voterId ∧ ballot.electionId = election.id.toInt ∧
        (processCommand lib config castTime db command).2.castEncryptedBallotEntries.rows =
          db.castEncryptedBallotEntries.rows ++ entries ∧
        (∀ entry ∈ entries, entry.castEncryptedBallotId = ballot.id) ∧
        entries.map CastEncryptedBallotEntryRow.candidateId =
          candidateIds db election.id.toInt ∧
        entries.map CastEncryptedBallotEntryRow.encryptedValue =
          (encryptedBallot client election.id
            (honestChoices election chosen blindings)).encryptedBallotEntries.map
              EncryptedBallotEntry.encryptedValue ∧
        responseType? (processCommand lib config castTime db command).1 =
          some ResponseType.castEncryptedBallot.value := by
  have hreceived := received_of_fetchElections hcolumns session hfetch helection
  have hclient := session.paillier_known
  have haccepted := honestChoices_accepted hkey hclient hreceived hgroup heligible hchosen
    hblindings
  obtain ⟨command, signature, hcast, hstores⟩ := castBallot_stores session haccepted
  let pending := honestPending client election (honestChoices election chosen blindings)
    session.voterId castTime signature
  obtain ⟨response, hresponse⟩ := exists_castResponse session.serverKey
    session.config_privKey session.encodes db pending
  obtain ⟨_, _, hfinish⟩ := Option.bind_eq_some_iff.mp hresponse
  have hcandidates : (newEntries db pending).map CastEncryptedBallotEntryRow.candidateId =
      candidateIds db election.id.toInt := by
    rw [newEntries_candidateId]
    exact hstores.accepted.candidates
  have hresult : processCommand lib config castTime db (encode command) =
      (some response, insertBallot db pending) := by
    rw [hstores.processCommand_eq, ← hresponse]
    rfl
  refine ⟨encode command, castEncryptedBallotRow pending db.castEncryptedBallots.nextval,
    newEntries db pending, hcast, ?_⟩
  rw [hresult]
  exact ⟨insertBallot_ballots db pending, rfl, rfl, insertBallot_entries db pending,
    fun entry hentry => castEncryptedBallotId_of_mem_newEntries hentry, hcandidates,
    newEntries_encryptedValue db pending, responseType?_finishResponse hfinish⟩

/-! The second voter has voted for the first candidate; now the first one votes for the
second. -/

def otherSession : Session SmallElection.referenceLib smallConfig
    SmallElection.reference.config otherState
    (honestServer SmallElection.referenceLib SmallElection.reference.config 5 otherState) :=
  smallSessionOver otherState otherState_registered

theorem exists_otherElection :
    ∃ election,
      fetchElections SmallElection.referenceLib smallConfig
          (honestServer SmallElection.referenceLib SmallElection.reference.config 5
            otherState) 0 = some [election] ∧
        election.id = 1 := by
  have hone : OneTallyPerElection otherState := .nil
  obtain ⟨message, hmessage, _⟩ :=
    hone.exists_electionMessage SmallElection.reference.election
  have hpage : page ElectionRow.id paginationMax otherState.elections.rows 0 =
      [SmallElection.reference.election] := by
    rfl
  have hmessages : electionsMessage otherState ⟨0⟩ = some ⟨[message]⟩ := by
    have hzero : (0 : Int32).toInt = 0 := rfl
    simp [electionsMessage, hzero, hpage, hmessage]
  refine ⟨message.received, ?_, (electionMessage_fields hmessage).1⟩
  rw [fetchElections_honest otherSession, hmessages]
  rfl

theorem honest_ballot_accepted_pair :
    ∃ election command ballot entries,
      castBallot SmallElection.referenceLib smallConfig election.id
            (honestChoices election 1 fun _ => .drawn 2) = some command ∧
        (processCommand SmallElection.referenceLib SmallElection.reference.config 5
            otherState command).2.castEncryptedBallots.rows =
          otherState.castEncryptedBallots.rows ++ [ballot] ∧
        ballot.voterId = 1 ∧ ballot.electionId = election.id.toInt ∧
        (processCommand SmallElection.referenceLib SmallElection.reference.config 5
            otherState command).2.castEncryptedBallotEntries.rows =
          otherState.castEncryptedBallotEntries.rows ++ entries ∧
        (∀ entry ∈ entries, entry.castEncryptedBallotId = ballot.id) ∧
        entries.map CastEncryptedBallotEntryRow.candidateId =
          candidateIds otherState election.id.toInt ∧
        entries.map CastEncryptedBallotEntryRow.encryptedValue =
          (encryptedBallot smallConfig election.id
            (honestChoices election 1 fun _ => .drawn 2)).encryptedBallotEntries.map
              EncryptedBallotEntry.encryptedValue ∧
        responseType? (processCommand SmallElection.referenceLib
            SmallElection.reference.config 5 otherState command).1 =
          some ResponseType.castEncryptedBallot.value := by
  obtain ⟨election, hfetch, hid⟩ := exists_otherElection
  have hmem : election ∈ [election] := List.mem_singleton.mpr rfl
  have hreceived := received_of_fetchElections otherState_intColumns otherSession hfetch hmem
  have helectionId : election.id.toInt = 1 := by
    rw [hid]
    rfl
  have hgroup : voterGroupId? otherState otherSession.voterId = some 1 :=
    voterGroupId?_eq_some.mpr
      ⟨SmallElection.reference.voter, List.mem_cons_self, rfl, rfl⟩
  have heligible : (eligibilityRows otherState election.id.toInt 5 1).length = 1 := by
    rw [helectionId]
    rfl
  have hchosen : 1 < election.candidates.length := by
    have hlength := congrArg List.length hreceived.candidates
    rw [helectionId, List.length_map] at hlength
    rw [hlength]
    decide
  exact ⟨election, honest_ballot_accepted otherState_intColumns otherSession ⟨rfl, rfl, rfl⟩
    hfetch hmem hgroup heligible hchosen fun _ =>
      KeyPair.reference.coprime_two⟩

end Vote

end VotingSystem.Client
