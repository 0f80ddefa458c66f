import VotingSystem.Client.HonestBallot
import VotingSystem.Client.MessageSize
import VotingSystem.Client.Receipt

namespace VotingSystem.Client

open VotingSystem.Data VotingSystem.Wire VotingSystem.Crypto VotingSystem.Protos
open VotingSystem.Storage
open VotingSystem.Server hiding getElections castBallot

/-! `Client::castBallot`, from the election id that the user enters to the receipt, with a
server behind its `threadLoop`. -/

abbrev Line := List Char

/-- `std::isspace`. -/
def isSpace (char : Char) : Bool := char = ' ' || (9 ≤ char.toNat && char.toNat ≤ 13)

def unsigned : Line → Line
  | '-' :: text => text
  | '+' :: text => text
  | text => text

def digitsValue (digits : List Char) : Nat :=
  digits.foldl (fun value digit => 10 * value + (digit.toNat - '0'.toNat)) 0

/-- `std::stoi`, which throws on anything but a number that fits into an `int`. -/
def stoi (line : Line) : Option Int32 :=
  let text := line.dropWhile isSpace
  let digits := (unsigned text).takeWhile Char.isDigit
  let value : Int := if text.head? = some '-' then -digitsValue digits else digitsValue digits
  if digits ≠ [] ∧ -2 ^ 31 ≤ value ∧ value < 2 ^ 31 then some (Int32.ofInt value) else none

/-- How a call ends: `stoi` throws, an error is logged, or the ballot is printed. -/
inductive CastOutcome
  | threw
  | error (message : String)
  | printed (ballot : PrintedBallot)
  deriving DecidableEq

structure CastRun where
  sent : Option Bytes
  outcome : CastOutcome

section CastBallot

variable (lib : Libraries) (config : Config)

/-- The loop over the candidates. At its end `getline` leaves an empty line. -/
def enterChoices (blindings : Nat → PaillierLib.Blinding) :
    List Candidate → Nat → List Line → Option (List Choice)
  | [], _, _ => some []
  | candidate :: candidates, i, console => do
      let choice ← stoi (console.headD [])
      let choices ← enterChoices blindings candidates (i + 1) console.tail
      some (⟨candidate.id, choice.toInt64.toUInt64, blindings i⟩ :: choices)

def receiveBallot (msgBuf : Option Bytes) : CastOutcome :=
  match msgBuf.bind (getResponse lib config) with
  | none => .error "Unable to retrieve Response!"
  | some (type, data) =>
      if type ≠ ResponseType.castEncryptedBallot.value then
        .error "Invalid Response type!"
      else
        match PrintedBallot.decode data with
        | none => .error "Unable to parse CastEncryptedBallot!"
        | some ballot => .printed ballot

def sendBallot (server : Bytes → Option Bytes) (eid : Int32) (choices : List Choice) :
    CastRun :=
  match encodeMessage lib.encodeFails (encryptedBallot config eid choices) with
  | none => ⟨none, .error "Unable to encode EncryptedBallot!"⟩
  | some ballotEnc =>
      match sendCommand lib config .castBallot ballotEnc with
      | none => ⟨none, .error "Unable to send Command!"⟩
      | some command => ⟨some command, receiveBallot lib config (server command)⟩

/-- The two connections of a call have a server each, as the second command is processed
later than the first. -/
def castBallotRun (electionsServer ballotServer : Bytes → Option Bytes)
    (blindings : Nat → PaillierLib.Blinding) (console : List Line) : CastRun :=
  match stoi (console.headD []) with
  | none => ⟨none, .threw⟩
  | some eid =>
      match getElections lib config electionsServer with
      | none => ⟨none, .error "Unable to fetch elections!"⟩
      | some elections =>
          match findElection elections eid with
          | none => ⟨none, .error "Invalid election ID!"⟩
          | some election =>
              match enterChoices blindings election.candidates 0 console.tail with
              | none => ⟨none, .threw⟩
              | some choices => sendBallot lib config ballotServer eid choices

end CastBallot

/-! What the user has to enter. -/

def enteredNumbers : Nat → List Line → Option (List Int32)
  | 0, _ => some []
  | count + 1, console => do
      let number ← stoi (console.headD [])
      let numbers ← enteredNumbers count console.tail
      some (number :: numbers)

theorem length_of_enteredNumbers {count : Nat} {console : List Line} {numbers : List Int32}
    (hnumbers : enteredNumbers count console = some numbers) : numbers.length = count := by
  induction count generalizing console numbers with
  | zero =>
      cases hnumbers
      rfl
  | succ count ih =>
      obtain ⟨number, _, hlater⟩ := Option.bind_eq_some_iff.mp hnumbers
      obtain ⟨rest, hrest, heq⟩ := Option.bind_eq_some_iff.mp hlater
      cases heq
      rw [List.length_cons, ih hrest]

/-- The numbers for the candidates in the order of their ids are zeros and a single one,
and the voter may vote in the election, which is on the first page. -/
structure ValidVote (db : Database) (voterId castTime : Int) (console : List Line)
    (eid : Int32) (numbers : List Int32) : Prop where
  eid_entered : stoi (console.headD []) = some eid
  shown : ∃ row ∈ page ElectionRow.id paginationMax db.elections.rows 0, row.id = eid.toInt
  numbers_entered :
    enteredNumbers (candidateIds db eid.toInt).length console.tail = some numbers
  zero_or_one : ∀ number ∈ numbers, number = 0 ∨ number = 1
  count_one : numbers.count 1 = 1
  voter : ∃ voter ∈ db.voters.rows, voter.id = voterId ∧
    (eligibilityRows db eid.toInt castTime voter.voterGroupId).length = 1

/-- The response that `threadLoop` returns to the one command of a connection, after the
bytes of its size. -/
def threadLoopServer (lib : Libraries) (config : Server.Config) (currTime : Int)
    (db : Database) (request : Bytes) : Option Bytes :=
  (threadLoop lib config currTime db (frame request)).1.map fun returned => returned.1.drop 4

/-- Nothing is printed as a receipt, and the command that was sent, if any, stores nothing. -/
structure CastRun.WithoutVote (lib : Libraries) (config : Server.Config) (castTime : Int)
    (db : Database) (run : CastRun) : Prop where
  outcome : ∀ ballot, run.outcome ≠ .printed ballot
  sent : ∀ command, run.sent = some command →
    (threadLoop lib config castTime db (frame command)).2 = db

theorem CastRun.WithoutVote.of_none {lib : Libraries} {config : Server.Config} {castTime : Int}
    {db : Database} {outcome : CastOutcome} (houtcome : ∀ ballot, outcome ≠ .printed ballot) :
    CastRun.WithoutVote lib config castTime db ⟨none, outcome⟩ where
  outcome := houtcome
  sent := by
    intro command hsent
    cases hsent

/-! Commands that `threadLoop` takes, and those that are too large. -/

section Limit

variable {lib : Libraries} {config : Server.Config} {currTime : Int} {db : Database}
variable {client : Config} {request : Bytes}

theorem threadLoopServer_of_length_le (hsize : request.length ≤ maxSize) :
    threadLoopServer lib config currTime db request =
      honestServer lib config currTime db request := by
  have hdrop : ∀ response : Bytes, (frame response).drop 4 = response := by
    intro response
    rw [frame]
    exact List.drop_left' (by simp)
  rw [threadLoopServer, threadLoop_frame hsize, honestServer, Option.map_map]
  simp only [Function.comp_def, hdrop, Option.map_id']

theorem threadLoopServer_of_lt_length (hsize : maxSize < request.length)
    (hlength : request.length < 2 ^ 32) :
    threadLoopServer lib config currTime db request = none := by
  rw [threadLoopServer, threadLoop_too_large hsize hlength, Option.map_none]

/-- The requests for elections are short. -/
theorem getElections_threadLoop (hrsa : Rsa2048 lib client) :
    getElections lib client (threadLoopServer lib config currTime db) =
      getElections lib client (honestServer lib config currTime db) := by
  have hdata : (encode (⟨0⟩ : PaginationMetadata)).length = 0 := rfl
  cases hencode : encodeMessage lib.encodeFails (⟨0⟩ : PaginationMetadata) with
  | none => simp only [getElections, fetchElections, hencode, Option.bind_eq_bind,
      Option.bind_none]
  | some data =>
      cases hsend : sendCommand lib client .getElections data with
      | none => simp only [getElections, fetchElections, hencode, hsend, Option.bind_eq_bind,
          Option.bind_some, Option.bind_none]
      | some command =>
          obtain ⟨_, rfl⟩ := encodeMessage_eq_some.mp hencode
          have hlength := sendCommand_length_le hrsa hsend
          have hshort := Record.serialize_bytes_length_le (by omega : 2 < 16) hdata.le
            (by decide)
          have hsize : command.length ≤ maxSize := by
            rw [maxSize]
            omega
          simp only [getElections, fetchElections, hencode, hsend, Option.bind_eq_bind,
            Option.bind_some, threadLoopServer_of_length_le hsize]

end Limit

/-! The loop over the candidates. -/

/-- The choices for the candidates, with the numbers that were entered for them. -/
structure Entered (blindings : Nat → PaillierLib.Blinding) (candidates : List Candidate)
    (numbers : List Int32) (choices : List Choice) : Prop where
  candidates : choices.map Choice.candidateId = candidates.map Candidate.id
  numbers : choices.map Choice.choice = numbers.map fun number => number.toInt64.toUInt64
  blindings : ∀ choice ∈ choices, ∃ i, choice.blinding = blindings i

theorem Entered.length_choices {blindings : Nat → PaillierLib.Blinding}
    {candidates : List Candidate} {numbers : List Int32} {choices : List Choice}
    (hentered : Entered blindings candidates numbers choices) :
    choices.length = numbers.length ∧ choices.length = candidates.length := by
  have hnumbers := congrArg List.length hentered.numbers
  have hcandidates := congrArg List.length hentered.candidates
  rw [List.length_map, List.length_map] at hnumbers hcandidates
  exact ⟨hnumbers, hcandidates⟩

section Loop

variable {blindings : Nat → PaillierLib.Blinding}

theorem enterChoices_entered {candidates : List Candidate} {i : Nat} {console : List Line}
    {choices : List Choice} (henter : enterChoices blindings candidates i console = some choices) :
    ∃ numbers, enteredNumbers candidates.length console = some numbers ∧
      Entered blindings candidates numbers choices := by
  induction candidates generalizing i console choices with
  | nil =>
      cases henter
      exact ⟨[], rfl, rfl, rfl, by simp⟩
  | cons candidate candidates ih =>
      obtain ⟨number, hnumber, hlater⟩ := Option.bind_eq_some_iff.mp henter
      obtain ⟨rest, hrest, heq⟩ := Option.bind_eq_some_iff.mp hlater
      cases heq
      obtain ⟨numbers, hnumbers, hentered⟩ := ih hrest
      refine ⟨number :: numbers, ?_, ?_, ?_, ?_⟩
      · simp only [List.length_cons, enteredNumbers, hnumber, hnumbers, Option.bind_eq_bind,
          Option.bind_some]
      · rw [List.map_cons, List.map_cons, hentered.candidates]
      · rw [List.map_cons, List.map_cons, hentered.numbers]
      · intro choice hchoice
        rcases List.mem_cons.mp hchoice with rfl | hrest
        · exact ⟨i, rfl⟩
        · exact hentered.blindings choice hrest

theorem exists_enterChoices {candidates : List Candidate} (i : Nat) {console : List Line}
    {numbers : List Int32} (hnumbers : enteredNumbers candidates.length console = some numbers) :
    ∃ choices, enterChoices blindings candidates i console = some choices := by
  induction candidates generalizing i console numbers with
  | nil => exact ⟨[], rfl⟩
  | cons candidate candidates ih =>
      obtain ⟨number, hnumber, hlater⟩ := Option.bind_eq_some_iff.mp hnumbers
      obtain ⟨rest, hrest, _⟩ := Option.bind_eq_some_iff.mp hlater
      obtain ⟨choices, hchoices⟩ := ih (i + 1) hrest
      exact ⟨_, by simp only [enterChoices, hnumber, hchoices, Option.bind_eq_bind,
        Option.bind_some]; rfl⟩

end Loop

/-- An `int` as the `unsigned long` that `paillierEnc` takes. -/
theorem toUInt64_injective : Function.Injective fun number : Int32 => number.toInt64.toUInt64 := by
  intro number number' heq
  have hsame : number.toInt64 = number'.toInt64 := congrArg UInt64.toInt64 heq
  have hint := congrArg Int64.toInt hsame
  rw [Int32.toInt_toInt64, Int32.toInt_toInt64] at hint
  exact Int32.toInt_inj.mp hint

theorem oneHot_map_iff {numbers : List Int32} :
    OneHot (numbers.map fun number => number.toInt64.toUInt64) ↔
      (∀ number ∈ numbers, number = 0 ∨ number = 1) ∧ numbers.count 1 = 1 := by
  have hzero : (0 : Int32).toInt64.toUInt64 = 0 := rfl
  have hone : (1 : Int32).toInt64.toUInt64 = 1 := rfl
  have hcount := List.count_map_of_injective numbers _ toUInt64_injective 1
  simp only [hone] at hcount
  constructor
  · intro hhot
    refine ⟨fun number hnumber => ?_, ?_⟩
    · have hvalue := hhot.zero_or_one _ (List.mem_map_of_mem hnumber)
      rw [← hzero, ← hone] at hvalue
      exact hvalue.imp (fun heq => toUInt64_injective heq) fun heq => toUInt64_injective heq
    · rw [← hcount]
      exact hhot.count_one
  · rintro ⟨hvalues, hnumbers⟩
    refine ⟨fun value hvalue => ?_, ?_⟩
    · obtain ⟨number, hnumber, rfl⟩ := List.mem_map.mp hvalue
      rcases hvalues number hnumber with rfl | rfl
      · exact .inl hzero
      · exact .inr hone
    · rw [hcount]
      exact hnumbers

/-! What becomes of a ballot that was sent. -/

section Send

variable {lib : Libraries} {client : Config} {config : Server.Config} {db : Database}

theorem sendBallot_of_castBallot {eid : Int32} {choices : List Choice} {command : Bytes}
    (hcast : castBallot lib client eid choices = some command) (server : Bytes → Option Bytes) :
    sendBallot lib client server eid choices =
      ⟨some command, receiveBallot lib client (server command)⟩ := by
  obtain ⟨ballotEnc, hencode, hsend⟩ := Option.bind_eq_some_iff.mp hcast
  simp only [sendBallot, hencode, hsend]

/-- What `threadLoop` takes, it answers like `processCommand`. -/
theorem sendBallot_threadLoop {currTime : Int} {eid : Int32} {choices : List Choice}
    {command : Bytes} (hcast : castBallot lib client eid choices = some command)
    (hsize : command.length ≤ maxSize) :
    sendBallot lib client (threadLoopServer lib config currTime db) eid choices =
      sendBallot lib client (honestServer lib config currTime db) eid choices := by
  rw [sendBallot_of_castBallot hcast, sendBallot_of_castBallot hcast,
    threadLoopServer_of_length_le hsize]

/-- A ballot for more than two candidates is dropped with its connection. -/
theorem sendBallot_dropped {currTime : Int} (hrsa : Rsa2048 lib client) {eid : Int32}
    {choices : List Choice} {command : Bytes}
    (hcast : castBallot lib client eid choices = some command)
    (hmany : 2 < choices.length) (hchoices : choices.length < 2 ^ 21) :
    (sendBallot lib client (threadLoopServer lib config currTime db) eid
      choices).WithoutVote lib config currTime db := by
  have hlength : command.length < 2 ^ 32 :=
    (castBallot_length_lt hrsa hcast hchoices).trans (by decide)
  have hlarge : maxSize < command.length := by
    rw [← not_le, castBallot_length_le_iff hrsa hcast]
    omega
  rw [sendBallot_of_castBallot hcast, threadLoopServer_of_lt_length hlarge hlength]
  refine ⟨by simp [receiveBallot], fun other hother => ?_⟩
  obtain rfl : command = other := Option.some.inj hother
  rw [castBallot_dropped hrsa hcast hmany hlength]

theorem receiveBallot_eq {response data : Bytes} {type : UInt32}
    (hget : getResponse lib client response = some (type, data)) :
    receiveBallot lib client (some response) =
      if type ≠ ResponseType.castEncryptedBallot.value then
        .error "Invalid Response type!"
      else
        match PrintedBallot.decode data with
        | none => .error "Unable to parse CastEncryptedBallot!"
        | some ballot => .printed ballot := by
  simp only [receiveBallot, Option.bind_some, hget]

/-- A ballot and the time and voter that it is checked for. -/
def SentAccepted (config : Server.Config) (db : Database) (voterId castTime : Int)
    (ballot : EncryptedBallot) : Prop :=
  ∀ signature, Accepted config db ⟨voterId, castTime, ballot, encode ballot, signature⟩

variable {castTime : Int}
variable (session : Session lib client config db (honestServer lib config castTime db))

theorem Session.sendBallot_accepted {eid : Int32} {choices : List Choice}
    (haccepted : SentAccepted config db session.voterId castTime
      (encryptedBallot client eid choices)) :
    ∃ command signature, castBallot lib client eid choices = some (encode command) ∧
      sendBallot lib client (honestServer lib config castTime db) eid choices =
          ⟨some (encode command), .printed (PrintedBallot.ofMessage (castReceipt db
            ⟨session.voterId, castTime, encryptedBallot client eid choices,
              encode (encryptedBallot client eid choices), signature⟩))⟩ ∧
        Stores lib config castTime db (encode command) command
          ⟨session.voterId, castTime, encryptedBallot client eid choices,
            encode (encryptedBallot client eid choices), signature⟩ := by
  obtain ⟨command, signature, hcast, hstores⟩ := castBallot_stores session haccepted
  refine ⟨command, signature, hcast, ?_, hstores⟩
  obtain ⟨response, hfinish, hget⟩ := session.getResponse_finishResponse .castEncryptedBallot
    (encode (castReceipt db ⟨session.voterId, castTime, encryptedBallot client eid choices,
      encode (encryptedBallot client eid choices), signature⟩))
  have hserver : honestServer lib config castTime db (encode command) = some response := by
    rw [honestServer, hstores.processCommand_eq, castResponse, session.encodeMessage_eq]
    exact hfinish
  rw [sendBallot_of_castBallot hcast, hserver, receiveBallot_eq hget, if_neg (not_not.mpr rfl),
    PrintedBallot.decode_encode]

theorem Session.sendBallot_refused {eid : Int32} {choices : List Choice}
    (hrefused : ¬SentAccepted config db session.voterId castTime
      (encryptedBallot client eid choices)) :
    ∃ command, castBallot lib client eid choices = some command ∧
      sendBallot lib client (honestServer lib config castTime db) eid choices =
          ⟨some command, .error "Invalid Response type!"⟩ ∧
        (processCommand lib config castTime db command).2 = db := by
  obtain ⟨command, htype, hdata, hsend, hauth⟩ := session.sendCommand_authenticates
    .castBallot (encode (encryptedBallot client eid choices))
  have hhandler : handlerOf command.type = .castBallot :=
    handlerOf_eq_castBallot_iff.mpr (.inr (.inr htype))
  have hcast : castBallot lib client eid choices = some (encode command) := by
    rw [castBallot, session.encodeMessage_eq]
    exact hsend
  have hprocess : ∃ error, processCommand lib config castTime db (encode command) =
      (errorResponse lib config error, db) := by
    simp only [processCommand, hauth db ⟨rfl, rfl, rfl⟩, dispatch, hhandler]
    rcases castBallot_cases lib config castTime db command.data command.signature
      session.voterId with ⟨error, _, herror⟩ | ⟨pending, hchecks, _⟩
    · exact ⟨error, herror⟩
    · obtain ⟨haccepted, hvoter, hcastAt, hpendingData, _⟩ := castBallotChecks_eq_ok.mp hchecks
      have hballot : pending.ballot = encryptedBallot client eid choices := by
        have hdecoded := haccepted.decoded
        rw [hpendingData, hdata, EncryptedBallot.decode_encode, Option.some.injEq] at hdecoded
        exact hdecoded.symm
      refine absurd (fun signature => ?_) hrefused
      refine ⟨EncryptedBallot.decode_encode _, ?_, ?_, ?_⟩
      · rw [← hballot, ← hvoter, ← hcastAt]
        exact haccepted.voter
      · rw [← hballot]
        exact haccepted.candidates
      · rw [← hballot]
        exact haccepted.oneHot
  obtain ⟨error, hprocess⟩ := hprocess
  obtain ⟨response, hfinish, hget⟩ := session.getResponse_finishResponse .error
    (errorData error)
  have hserver : honestServer lib config castTime db (encode command) = some response := by
    rw [honestServer, hprocess]
    exact hfinish
  refine ⟨encode command, hcast, ?_, by rw [hprocess]⟩
  rw [sendBallot_of_castBallot hcast, hserver, receiveBallot_eq hget, if_pos (by decide)]

/-- The server decrypts the numbers that were entered. -/
theorem decrypted_entered {key : KeyPair} (hkey : config.HoldsKey key)
    (hclient : client.serverPaillierPubKey = config.paillierPubKey)
    {blindings : Nat → PaillierLib.Blinding}
    (hblindings : ∀ i, (blindings i).factor.Coprime key.modulus.n)
    {candidates : List Candidate} {numbers : List Int32} {choices : List Choice}
    (hentered : Entered blindings candidates numbers choices) (eid : Int32) :
    ((encryptedBallot client eid choices).encryptedBallotEntries.map fun entry =>
        decryptEntry config entry.encryptedValue) =
      numbers.map fun number => number.toInt64.toUInt64 := by
  rw [← hentered.numbers]
  apply decrypted_encryptedBallot hkey hclient eid
  intro choice hchoice
  obtain ⟨i, hi⟩ := hentered.blindings choice hchoice
  rw [hi]
  exact hblindings i

/-- Of what the user entered, the server checks the numbers and the voter. -/
theorem sentAccepted_iff {key : KeyPair} (hkey : config.HoldsKey key)
    (hclient : client.serverPaillierPubKey = config.paillierPubKey) {election : Election}
    (hreceived : Received db election) {blindings : Nat → PaillierLib.Blinding}
    (hblindings : ∀ i, (blindings i).factor.Coprime key.modulus.n) {numbers : List Int32}
    {choices : List Choice} (hentered : Entered blindings election.candidates numbers choices)
    {voterId : Int} :
    SentAccepted config db voterId castTime (encryptedBallot client election.id choices) ↔
      ((∀ number ∈ numbers, number = 0 ∨ number = 1) ∧ numbers.count 1 = 1) ∧
        ∃ voter ∈ db.voters.rows, voter.id = voterId ∧
          (eligibilityRows db election.id.toInt castTime voter.voterGroupId).length = 1 := by
  have hdecrypted := decrypted_entered hkey hclient hblindings hentered election.id
  have hcandidates : (encryptedBallot client election.id choices).encryptedBallotEntries.map
      (fun entry => entry.candidateId.toInt) = candidateIds db election.id.toInt := by
    have hids := congrArg (List.map Int32.toInt) hentered.candidates
    rw [List.map_map, List.map_map] at hids
    rw [encryptedBallot, List.map_map]
    exact hids.trans hreceived.candidates
  rw [← oneHot_map_iff]
  constructor
  · intro haccepted
    have hchecked := haccepted []
    exact ⟨hdecrypted ▸ hchecked.oneHot, hchecked.voter⟩
  · rintro ⟨hhot, hvoter⟩ signature
    exact ⟨EncryptedBallot.decode_encode _, hvoter, hcandidates, hdecrypted.symm ▸ hhot⟩

end Send

/-! What the user sees of the elections. -/

section Shown

variable {lib : Libraries} {client : Config} {config : Server.Config} {db before : Database}

/-- The same two parties at an earlier time. -/
def Session.earlier {server : Bytes → Option Bytes} (session : Session lib client config db server)
    (hsetup : before.SameSetup db) (currTime : Int) :
    Session lib client config before (honestServer lib config currTime before) where
  clientKey := session.clientKey
  serverKey := session.serverKey
  paillierKey := session.paillierKey
  voterId := session.voterId
  client_pubKey := session.client_pubKey
  client_privKey := session.client_privKey
  config_pubKey := session.config_pubKey
  config_privKey := session.config_privKey
  config_paillier := session.config_paillier
  server_known := session.server_known
  paillier_known := session.paillier_known
  registered := by
    rw [voterOfKey?, ← hsetup.voters]
    exact session.registered
  encodes := session.encodes
  answers := fun _ => ⟨currTime, before, ⟨rfl, rfl, rfl⟩, rfl⟩

theorem Received.of_sameSetup (hsetup : before.SameSetup db) {election : Election}
    (hreceived : Received before election) : Received db election where
  candidates := by
    rw [hreceived.candidates, candidateIds, candidateIds, hsetup.candidates]

variable {currTime : Int}

theorem received_of_findElection (hcolumns : before.IntColumns)
    (session : Session lib client config before (honestServer lib config currTime before))
    {elections : List Election}
    (hget : getElections lib client (honestServer lib config currTime before) = some elections)
    {eid : Int32} {election : Election} (hfind : findElection elections eid = some election) :
    election.id = eid ∧ Received before election ∧
      ∃ row ∈ page ElectionRow.id paginationMax before.elections.rows 0,
        row.id = eid.toInt := by
  have hid : election.id = eid := by
    simpa using List.find?_some hfind
  have hmem := List.mem_of_find?_eq_some hfind
  refine ⟨hid, received_of_fetchElections hcolumns session hget hmem, ?_⟩
  obtain ⟨messages, hmessages, rfl⟩ := getElections_honest session hget
  obtain ⟨message, hmessage, rfl⟩ := List.mem_map.mp hmem
  obtain ⟨row, hrow, hbuilt⟩ := exists_of_mem_mapM hmessages hmessage
  refine ⟨row, hrow, ?_⟩
  rw [← hid, Election.received, (electionMessage_fields hbuilt).1]
  exact (toInt_ofInt (hcolumns.elections row (mem_of_mem_page _ hrow)).1).symm

theorem exists_findElection (hcolumns : before.IntColumns)
    (session : Session lib client config before (honestServer lib config currTime before))
    {elections : List Election}
    (hget : getElections lib client (honestServer lib config currTime before) = some elections)
    {eid : Int32}
    (hshown : ∃ row ∈ page ElectionRow.id paginationMax before.elections.rows 0,
      row.id = eid.toInt) :
    ∃ election, findElection elections eid = some election := by
  obtain ⟨messages, hmessages, rfl⟩ := getElections_honest session hget
  obtain ⟨row, hrow, hid⟩ := hshown
  obtain ⟨message, _, hfind⟩ := findElection_of_mem hcolumns
    (fun other hother => mem_of_mem_page _ hother) hmessages hrow
  rw [hid, Int32.ofInt_toInt] at hfind
  exact ⟨_, hfind⟩

end Shown

/-! The whole call. -/

theorem Received.length_candidateIds {db : Database} {election : Election}
    (hreceived : Received db election) :
    election.candidates.length = (candidateIds db election.id.toInt).length := by
  rw [← hreceived.candidates, List.length_map]

theorem castBallotRun_of_entered {lib : Libraries} {client : Config}
    {electionsServer ballotServer : Bytes → Option Bytes}
    {blindings : Nat → PaillierLib.Blinding} {console : List Line} {eid : Int32}
    {elections : List Election} {election : Election} {choices : List Choice}
    (heid : stoi (console.headD []) = some eid)
    (hget : getElections lib client electionsServer = some elections)
    (hfind : findElection elections eid = some election)
    (hchoices : enterChoices blindings election.candidates 0 console.tail = some choices) :
    castBallotRun lib client electionsServer ballotServer blindings console =
      sendBallot lib client ballotServer eid choices := by
  simp only [castBallotRun, heid, hget, hfind, hchoices]

section Whole

variable {lib : Libraries} {client : Config} {config : Server.Config}
variable {before db : Database} {fetchTime castTime : Int}
variable {blindings : Nat → PaillierLib.Blinding} {console : List Line}

/-- The valid lines bring the call to a ballot that the server accepts. -/
theorem exists_accepted_of_validVote (hcolumns : before.IntColumns)
    (hone : OneTallyPerElection before) (hsetup : before.SameSetup db)
    (hrsa : Rsa2048 lib client)
    (session : Session lib client config db (honestServer lib config castTime db))
    (hkey : config.HoldsKey session.paillierKey)
    (hblindings : ∀ i, (blindings i).factor.Coprime session.paillierKey.modulus.n)
    {eid : Int32} {numbers : List Int32}
    (hvalid : ValidVote db session.voterId castTime console eid numbers) :
    ∃ choices, choices.length = numbers.length ∧
      castBallotRun lib client (threadLoopServer lib config fetchTime before)
          (threadLoopServer lib config castTime db) blindings console =
        sendBallot lib client (threadLoopServer lib config castTime db) eid choices ∧
      SentAccepted config db session.voterId castTime (encryptedBallot client eid choices) ∧
        ((encryptedBallot client eid choices).encryptedBallotEntries.map fun entry =>
            decryptEntry config entry.encryptedValue) =
          numbers.map fun number => number.toInt64.toUInt64 := by
  let earlier := session.earlier hsetup fetchTime
  obtain ⟨elections, hget⟩ := exists_getElections earlier hone
  have hshown := hvalid.shown
  rw [hsetup.elections] at hshown
  obtain ⟨election, hfind⟩ := exists_findElection hcolumns earlier hget hshown
  obtain ⟨rfl, hreceived, _⟩ := received_of_findElection hcolumns earlier hget hfind
  have hreceived := hreceived.of_sameSetup hsetup
  have hnumbers := hvalid.numbers_entered
  rw [← hreceived.length_candidateIds] at hnumbers
  obtain ⟨choices, hchoices⟩ := @exists_enterChoices blindings _ 0 _ _ hnumbers
  obtain ⟨entered, hentered, hfaithful⟩ := enterChoices_entered hchoices
  obtain rfl : numbers = entered := Option.some.inj (hnumbers.symm.trans hentered)
  have haccepted := (@sentAccepted_iff client config db castTime _ hkey
    session.paillier_known _ hreceived _ hblindings _ _ hfaithful session.voterId).mpr
      ⟨⟨hvalid.zero_or_one, hvalid.count_one⟩, hvalid.voter⟩
  rw [← getElections_threadLoop hrsa] at hget
  exact ⟨choices, hfaithful.length_choices.1,
    castBallotRun_of_entered hvalid.eid_entered hget hfind hchoices, haccepted,
    decrypted_entered hkey session.paillier_known hblindings hfaithful election.id⟩

/-- Other lines end the call early or bring it to a ballot that the server refuses. -/
theorem withoutVote_of_invalid (hcolumns : before.IntColumns)
    (hone : OneTallyPerElection before) (hsetup : before.SameSetup db)
    (hrsa : Rsa2048 lib client)
    (session : Session lib client config db (honestServer lib config castTime db))
    (hkey : config.HoldsKey session.paillierKey)
    (hblindings : ∀ i, (blindings i).factor.Coprime session.paillierKey.modulus.n)
    (hcandidates : ∀ electionId, (candidateIds db electionId).length < 2 ^ 21)
    (hinvalid : ¬∃ eid numbers, ValidVote db session.voterId castTime console eid numbers) :
    (castBallotRun lib client (threadLoopServer lib config fetchTime before)
      (threadLoopServer lib config castTime db) blindings console).WithoutVote lib config
        castTime db := by
  let earlier := session.earlier hsetup fetchTime
  obtain ⟨elections, hget⟩ := exists_getElections earlier hone
  have hserved := hget
  rw [← getElections_threadLoop hrsa] at hserved
  cases heid : stoi (console.headD []) with
  | none =>
      simp only [castBallotRun, heid]
      exact .of_none (by simp)
  | some eid =>
      cases hfind : findElection elections eid with
      | none =>
          simp only [castBallotRun, heid, hserved, hfind]
          exact .of_none (by simp)
      | some election =>
          cases hchoices : enterChoices blindings election.candidates 0 console.tail with
          | none =>
              simp only [castBallotRun, heid, hserved, hfind, hchoices]
              exact .of_none (by simp)
          | some choices =>
              obtain ⟨rfl, hreceived, hshown⟩ :=
                received_of_findElection hcolumns earlier hget hfind
              have hreceived := hreceived.of_sameSetup hsetup
              obtain ⟨numbers, hnumbers, hfaithful⟩ := enterChoices_entered hchoices
              have hlength := hfaithful.length_choices.2
              rw [hreceived.length_candidateIds] at hnumbers hlength
              rw [← hsetup.elections] at hshown
              have hrefused : ¬SentAccepted config db session.voterId castTime
                  (encryptedBallot client election.id choices) := by
                intro haccepted
                obtain ⟨⟨hzeroOrOne, hcountOne⟩, hvoter⟩ := (sentAccepted_iff hkey
                  session.paillier_known hreceived hblindings hfaithful).mp haccepted
                exact hinvalid ⟨election.id, numbers, heid, hshown, hnumbers, hzeroOrOne,
                  hcountOne, hvoter⟩
              obtain ⟨command, hcast, hsend, hunchanged⟩ := session.sendBallot_refused hrefused
              rw [castBallotRun_of_entered heid hserved hfind hchoices]
              by_cases hfew : choices.length ≤ 2
              · have hsize := (castBallot_length_le_iff hrsa hcast).mpr hfew
                rw [sendBallot_threadLoop hcast hsize, hsend]
                refine ⟨by simp, fun other hother => ?_⟩
                obtain rfl : command = other := Option.some.inj hother
                rw [threadLoop_frame hsize]
                exact hunchanged
              · exact sendBallot_dropped hrsa hcast (by omega)
                  (hlength.trans_lt (hcandidates _))

end Whole

def booth (candidates : SerialTable CandidateRow) : Database :=
  { SmallElection.reference.database with
    voters := SerialTable.empty.insert fun id => ⟨id, 1, transparentConfig.clientPubKey⟩
    candidates := candidates }

def twoCandidates : SerialTable CandidateRow := pairDatabase.candidates

def threeCandidates : SerialTable CandidateRow := twoCandidates.insert fun id => ⟨id, 1, [], [1]⟩

theorem booth_voters (candidates : SerialTable CandidateRow) :
    (booth candidates).voters.rows = [⟨1, 1, transparentConfig.clientPubKey⟩] := rfl

theorem booth_eligible (candidates : SerialTable CandidateRow) :
    (eligibilityRows (booth candidates) 1 5 1).length = 1 := by
  have helection := (SmallElection.reference.eligibilityRows_one 5).mpr (by decide)
  exact helection

theorem booth_intColumns {candidates : SerialTable CandidateRow}
    (hcandidates : ∀ row ∈ candidates.rows, IntColumn row.id ∧ IntColumn row.electionId) :
    (booth candidates).IntColumns :=
  { reference_intColumns with
    voters := by
      intro row hrow
      rw [booth_voters, List.mem_singleton] at hrow
      subst hrow
      decide
    candidates := hcandidates }

theorem booth_registered (candidates : SerialTable CandidateRow) :
    voterOfKey? (booth candidates) transparentConfig.clientPubKey = some 1 := by
  simp [voterOfKey?, booth_voters]

theorem decode_transparentConfig :
    Transparent.decodeKey transparentConfig.clientPubKey = some (1, 256) := rfl

def boothSession (candidates : SerialTable CandidateRow) :
    Session SmallElection.referenceLib transparentConfig SmallElection.reference.config
      (booth candidates) (honestServer SmallElection.referenceLib
        SmallElection.reference.config 5 (booth candidates)) where
  clientKey :=
    { Transparent.keyPair 1 with
      pubKey := transparentConfig.clientPubKey
      decode_public := decode_transparentConfig }
  serverKey := Transparent.keyPair 0
  paillierKey := .reference
  voterId := 1
  client_pubKey := rfl
  client_privKey := rfl
  config_pubKey := smallSession.config_pubKey
  config_privKey := smallSession.config_privKey
  config_paillier := smallSession.config_paillier
  server_known := rfl
  paillier_known := rfl
  registered := booth_registered candidates
  encodes := smallSession.encodes
  answers := fun _ => ⟨5, booth candidates, ⟨rfl, rfl, rfl⟩, rfl⟩

theorem length_candidateIds_le (db : Database) (electionId : Int) :
    (candidateIds db electionId).length ≤ db.candidates.rows.length := by
  rw [candidateIds, orderBy_length, List.length_map]
  exact List.length_filter_le _ _

theorem booth_shown (candidates : SerialTable CandidateRow) :
    ∃ row ∈ page ElectionRow.id paginationMax (booth candidates).elections.rows 0,
      row.id = (1 : Int32).toInt := by
  have hpage : page ElectionRow.id paginationMax (booth candidates).elections.rows 0 =
      [SmallElection.reference.election] := rfl
  refine ⟨SmallElection.reference.election, ?_, rfl⟩
  rw [hpage]
  exact List.mem_singleton.mpr rfl

theorem booth_voter (candidates : SerialTable CandidateRow) :
    ∃ voter ∈ (booth candidates).voters.rows, voter.id = 1 ∧
      (eligibilityRows (booth candidates) (1 : Int32).toInt 5 voter.voterGroupId).length = 1 := by
  rw [booth_voters]
  exact ⟨_, List.mem_singleton.mpr rfl, rfl, booth_eligible candidates⟩

theorem stoi_one : stoi ['1'] = some 1 := rfl

theorem booth_validVote {candidates : SerialTable CandidateRow} {lines : List Line}
    {numbers : List Int32}
    (hnumbers : enteredNumbers (candidateIds (booth candidates) 1).length lines = some numbers)
    (hvalues : ∀ number ∈ numbers, number = 0 ∨ number = 1) (hcount : numbers.count 1 = 1) :
    ValidVote (booth candidates) 1 5 (['1'] :: lines) 1 numbers where
  eid_entered := stoi_one
  shown := booth_shown candidates
  numbers_entered := hnumbers
  zero_or_one := hvalues
  count_one := hcount
  voter := booth_voter candidates

end VotingSystem.Client
