import VotingSystem.Server.CastBallot
import VotingSystem.Server.Queries

namespace VotingSystem.Server

open VotingSystem.Data VotingSystem.Crypto VotingSystem.Protos VotingSystem.Storage

/-! `processCommand`: decoding, the voter's key, the signature and the switch. -/

section Lookup

variable (db : Database)

def voterOfKey? (pubkey : Bytes) : Option Int :=
  match db.voters.rows.filter fun voter => voter.smartcardPublicKey = pubkey with
  | [voter] => some voter.id
  | _ => none

end Lookup

/-- The handler a command type reaches. A case without a `return` falls through
to the next one. -/
inductive Handler
  | getElections
  | getVoters
  | getEncryptedBallots
  | castBallot
  | invalid
  deriving DecidableEq, Repr

def handlerOf (type : UInt32) : Handler :=
  if type = CommandType.getElections.value then
    .getElections
  else if type = CommandType.getValidVoterGroups.value ∨
      type = CommandType.getValidVoters.value then
    .getVoters
  else if type = CommandType.getPlaintextBallots.value ∨
      type = CommandType.getEncryptedBallots.value then
    .getEncryptedBallots
  else if type = CommandType.getPlaintextBallot.value ∨
      type = CommandType.getEncryptedBallot.value ∨
      type = CommandType.castBallot.value then
    .castBallot
  else
    .invalid

section Process

variable (lib : Libraries) (config : Config)

def dispatch (currTime : Int) (db : Database) (command : Command) (voterId : Int) :
    Option Bytes × Database :=
  match handlerOf command.type with
  | .getElections =>
      match PaginationMetadata.decode command.data with
      | none => (errorResponse lib config "Invalid pagination data!", db)
      | some pagination => (getElections lib config db pagination, db)
  | .getVoters =>
      match PaginationMetadata.decode command.data with
      | none => (errorResponse lib config "Invalid pagination data!", db)
      | some pagination => (getVoters lib config db pagination, db)
  | .getEncryptedBallots =>
      match CastEncryptedBallotsRequest.decode command.data with
      | none => (errorResponse lib config "Invalid request data!", db)
      | some cebRequest => (getEncryptedBallots lib config db cebRequest, db)
  | .castBallot =>
      castBallot lib config currTime db command.data command.signature voterId
  | .invalid => (errorResponse lib config "Invalid Command!", db)

/-- The checks before the switch, with the error each one answers with. -/
def authenticate (db : Database) (command : Bytes) : Except String (Command × Int) :=
  match Command.decode command with
  | none => .error "Invalid Command!"
  | some commandParsed =>
      match voterOfKey? db commandParsed.pubkey with
      | none => .error "Invalid Voter!"
      | some voterId =>
          if rsaVerify lib.wolf (typeAndData commandParsed.type commandParsed.data)
              commandParsed.signature commandParsed.pubkey = false then
            .error "Invalid signature!"
          else
            .ok (commandParsed, voterId)

def processCommand (currTime : Int) (db : Database) (command : Bytes) :
    Option Bytes × Database :=
  match authenticate lib db command with
  | .error error => (errorResponse lib config error, db)
  | .ok (commandParsed, voterId) => dispatch lib config currTime db commandParsed voterId

end Process

/-! What a command can do to the database. -/

theorem handlerOf_eq_castBallot_iff {type : UInt32} :
    handlerOf type = .castBallot ↔
      type = CommandType.getPlaintextBallot.value ∨
        type = CommandType.getEncryptedBallot.value ∨
          type = CommandType.castBallot.value := by
  constructor
  · intro hhandler
    unfold handlerOf at hhandler
    split_ifs at hhandler with h0 h1 h2 h3
    exact h3
  · intro htypes
    rcases htypes with rfl | rfl | rfl <;> decide

theorem voterOfKey?_eq_some {db : Database} {pubkey : Bytes} {voterId : Int}
    (hvoter : voterOfKey? db pubkey = some voterId) :
    ∃ voter ∈ db.voters.rows, voter.id = voterId ∧ voter.smartcardPublicKey = pubkey := by
  unfold voterOfKey? at hvoter
  split at hvoter
  · rename_i voter hsingle
    have hmem : voter ∈ db.voters.rows.filter fun voter =>
        voter.smartcardPublicKey = pubkey := by
      simp [hsingle]
    rw [List.mem_filter] at hmem
    exact ⟨voter, hmem.1, by simpa using hvoter, by simpa using hmem.2⟩
  · contradiction

theorem authenticate_eq_ok {lib : Libraries} {db : Database} {bytes : Bytes}
    {command : Command} {voterId : Int} :
    authenticate lib db bytes = .ok (command, voterId) ↔
      Command.decode bytes = some command ∧
        voterOfKey? db command.pubkey = some voterId ∧
          rsaVerify lib.wolf (typeAndData command.type command.data) command.signature
            command.pubkey = true := by
  unfold authenticate
  cases hdecode : Command.decode bytes with
  | none => simp
  | some commandParsed =>
      simp only [Option.some.injEq]
      constructor
      · intro hok
        split at hok
        · contradiction
        · rename_i found hvoter
          split at hok
          · contradiction
          · rename_i hverify
            simp only [Except.ok.injEq, Prod.mk.injEq] at hok
            obtain ⟨rfl, rfl⟩ := hok
            exact ⟨rfl, hvoter, Bool.of_not_eq_false hverify⟩
      · intro hfields
        obtain ⟨rfl, hvoter, hverify⟩ := hfields
        simp [hvoter, hverify]

/-- A ballot that a command stores: it was authenticated, dispatched to
`castBallot` and accepted there. -/
structure Stores (lib : Libraries) (config : Config) (currTime : Int) (db : Database)
    (bytes : Bytes) (command : Command) (pending : PendingBallot) : Prop where
  authenticated : authenticate lib db bytes = .ok (command, pending.voterId)
  dispatched : handlerOf command.type = .castBallot
  accepted : Accepted config db pending
  castAt : pending.castAt = currTime
  commandData : pending.commandData = command.data
  commandSignature : pending.commandSignature = command.signature

theorem castBallot_cases (lib : Libraries) (config : Config) (currTime : Int) (db : Database)
    (commandData commandSignature : Bytes) (voterId : Int) :
    (∃ error, castBallotChecks config db currTime commandData commandSignature voterId =
          .error error ∧
        castBallot lib config currTime db commandData commandSignature voterId =
          (errorResponse lib config error, db)) ∨
      ∃ pending, castBallotChecks config db currTime commandData commandSignature voterId =
          .ok pending ∧
        castBallot lib config currTime db commandData commandSignature voterId =
          (castResponse lib config db pending, insertBallot db pending) := by
  unfold castBallot
  cases castBallotChecks config db currTime commandData commandSignature voterId with
  | error error => exact .inl ⟨error, rfl, rfl⟩
  | ok pending => exact .inr ⟨pending, rfl, rfl⟩

theorem castBallot_of_accepted {lib : Libraries} {config : Config} {db : Database}
    {pending : PendingBallot} (haccepted : Accepted config db pending) :
    castBallot lib config pending.castAt db pending.commandData pending.commandSignature
        pending.voterId =
      (castResponse lib config db pending, insertBallot db pending) := by
  have hchecks := castBallotChecks_eq_ok.mpr ⟨haccepted, rfl, rfl, rfl, rfl⟩
  simp only [castBallot, hchecks]

/-- Everything a command does to the database: nothing, or the storing of one
ballot. -/
theorem processCommand_cases (lib : Libraries) (config : Config) (currTime : Int)
    (db : Database) (bytes : Bytes) :
    (processCommand lib config currTime db bytes).2 = db ∨
      ∃ command pending, Stores lib config currTime db bytes command pending ∧
        processCommand lib config currTime db bytes =
          (castResponse lib config db pending, insertBallot db pending) := by
  unfold processCommand
  cases hauth : authenticate lib db bytes with
  | error error => exact .inl rfl
  | ok result =>
      obtain ⟨command, voterId⟩ := result
      simp only [dispatch]
      cases hhandler : handlerOf command.type with
      | getElections =>
          left
          cases PaginationMetadata.decode command.data <;> rfl
      | getVoters =>
          left
          cases PaginationMetadata.decode command.data <;> rfl
      | getEncryptedBallots =>
          left
          cases CastEncryptedBallotsRequest.decode command.data <;> rfl
      | invalid => exact .inl rfl
      | castBallot =>
          rcases castBallot_cases lib config currTime db command.data command.signature
            voterId with ⟨error, _, hcast⟩ | ⟨pending, hchecks, hcast⟩
          · left
            rw [hcast]
          · obtain ⟨haccepted, rfl, hcastAt, hdata, hsignature⟩ :=
              castBallotChecks_eq_ok.mp hchecks
            exact .inr ⟨command, pending,
              ⟨hauth, hhandler, haccepted, hcastAt, hdata, hsignature⟩, hcast⟩

theorem Stores.processCommand_eq {lib : Libraries} {config : Config} {currTime : Int}
    {db : Database} {bytes : Bytes} {command : Command} {pending : PendingBallot}
    (hstores : Stores lib config currTime db bytes command pending) :
    processCommand lib config currTime db bytes =
      (castResponse lib config db pending, insertBallot db pending) := by
  simp only [processCommand, hstores.authenticated, dispatch, hstores.dispatched]
  rw [← hstores.castAt, ← hstores.commandData, ← hstores.commandSignature]
  exact castBallot_of_accepted hstores.accepted

theorem insertBallot_ne (db : Database) (pending : PendingBallot) :
    insertBallot db pending ≠ db := by
  intro heq
  have hrows := congrArg (fun db => db.castEncryptedBallots.rows.length) heq
  simp [insertBallot_ballots] at hrows

theorem processCommand_unchanged_iff {lib : Libraries} {config : Config} {currTime : Int}
    {db : Database} {bytes : Bytes} :
    (processCommand lib config currTime db bytes).2 = db ↔
      ¬∃ command pending, Stores lib config currTime db bytes command pending := by
  constructor
  · intro hsame hexists
    obtain ⟨command, pending, hstores⟩ := hexists
    rw [hstores.processCommand_eq] at hsame
    exact insertBallot_ne db pending hsame
  · intro hnone
    rcases processCommand_cases lib config currTime db bytes with
      hsame | ⟨command, pending, hstores, _⟩
    · exact hsame
    · exact absurd ⟨command, pending, hstores⟩ hnone

theorem processCommand_sameSetup (lib : Libraries) (config : Config) (currTime : Int)
    (db : Database) (bytes : Bytes) :
    db.SameSetup (processCommand lib config currTime db bytes).2 := by
  rcases processCommand_cases lib config currTime db bytes with
    hsame | ⟨command, pending, _, hresult⟩
  · rw [hsame]
    exact .refl db
  · rw [hresult]
    exact insertBallot_sameSetup db pending

/-! What the server signs as ballots. -/

section Signed

variable {lib : Libraries} {config : Config} {db : Database} {response : Bytes}
variable {parsed : Response}

theorem finishResponse_parsed {type : ResponseType} {data : Bytes}
    (hresponse : finishResponse lib config type data = some response)
    (hparsed : Response.decode response = some parsed) :
    parsed.type = type.value ∧ parsed.data = data := by
  obtain ⟨signature, hdecode⟩ := finishResponse_decode hresponse
  rw [hparsed, Option.some.injEq] at hdecode
  rw [hdecode]
  exact ⟨rfl, rfl⟩

/-- A response of another type is not a page of ballots. -/
theorem not_page_of_finishResponse {type : ResponseType} {data : Bytes}
    (htype : type.value ≠ ResponseType.castEncryptedBallots.value)
    (hresponse : finishResponse lib config type data = some response)
    (hparsed : Response.decode response = some parsed) :
    parsed.type ≠ ResponseType.castEncryptedBallots.value := by
  rw [(finishResponse_parsed hresponse hparsed).1]
  exact htype

/-- Only a request for ballots is answered with a page of ballots. -/
theorem processCommand_page {currTime : Int} {bytes : Bytes}
    (hresponse : (processCommand lib config currTime db bytes).1 = some response)
    (hparsed : Response.decode response = some parsed)
    (htype : parsed.type = ResponseType.castEncryptedBallots.value) :
    ∃ command request, Command.decode bytes = some command ∧
      CastEncryptedBallotsRequest.decode command.data = some request ∧
        parsed.data = encode (encryptedBallotsMessage db request) := by
  have herror : ∀ error, errorResponse lib config error ≠ some response := by
    intro error herror
    exact not_page_of_finishResponse (by decide) herror hparsed htype
  unfold processCommand at hresponse
  cases hauth : authenticate lib db bytes with
  | error error =>
      rw [hauth] at hresponse
      exact absurd hresponse (herror error)
  | ok result =>
      obtain ⟨command, voterId⟩ := result
      simp only [hauth, dispatch] at hresponse
      cases hhandler : handlerOf command.type with
      | getElections =>
          simp only [hhandler] at hresponse
          cases hpagination : PaginationMetadata.decode command.data with
          | none =>
              rw [hpagination] at hresponse
              exact absurd hresponse (herror _)
          | some pagination =>
              rw [hpagination] at hresponse
              obtain ⟨elections, _, hresponse⟩ := Option.bind_eq_some_iff.mp hresponse
              obtain ⟨encoded, _, hresponse⟩ := Option.bind_eq_some_iff.mp hresponse
              exact absurd htype (not_page_of_finishResponse (by decide) hresponse hparsed)
      | getVoters =>
          simp only [hhandler] at hresponse
          cases hpagination : PaginationMetadata.decode command.data with
          | none =>
              rw [hpagination] at hresponse
              exact absurd hresponse (herror _)
          | some pagination =>
              rw [hpagination] at hresponse
              obtain ⟨encoded, _, hresponse⟩ := Option.bind_eq_some_iff.mp hresponse
              exact absurd htype (not_page_of_finishResponse (by decide) hresponse hparsed)
      | invalid =>
          simp only [hhandler] at hresponse
          exact absurd hresponse (herror _)
      | castBallot =>
          simp only [hhandler] at hresponse
          rcases castBallot_cases lib config currTime db command.data command.signature
            voterId with ⟨error, _, hcast⟩ | ⟨pending, _, hcast⟩
          · rw [hcast] at hresponse
            exact absurd hresponse (herror error)
          · rw [hcast] at hresponse
            obtain ⟨receipt, _, hresponse⟩ := Option.bind_eq_some_iff.mp hresponse
            exact absurd htype (not_page_of_finishResponse (by decide) hresponse hparsed)
      | getEncryptedBallots =>
          simp only [hhandler] at hresponse
          cases hrequest : CastEncryptedBallotsRequest.decode command.data with
          | none =>
              rw [hrequest] at hresponse
              exact absurd hresponse (herror _)
          | some request =>
              rw [hrequest] at hresponse
              obtain ⟨encoded, hencode, hresponse⟩ := Option.bind_eq_some_iff.mp hresponse
              obtain ⟨_, rfl⟩ := encodeMessage_eq_some.mp hencode
              exact ⟨command, request, (authenticate_eq_ok.mp hauth).1, hrequest,
                (finishResponse_parsed hresponse hparsed).2⟩

end Signed

end VotingSystem.Server
