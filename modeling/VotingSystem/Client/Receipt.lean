import VotingSystem.Wire.Parse
import VotingSystem.Client.Freshness
import VotingSystem.Server.PublicRecord

namespace VotingSystem.Client

open VotingSystem.Data VotingSystem.Crypto VotingSystem.Wire VotingSystem.Protos
open VotingSystem.Storage VotingSystem.Server

/-! The end of `Client::castBallot`: what it prints of the response, over a network that
delivers any response of the server. -/

/-- The fields of a `CastEncryptedBallot` that have no callback. -/
structure PrintedBallot where
  id : Int32
  voterId : Int32
  castAt : Int32
  electionId : Int32
  deriving DecidableEq

namespace PrintedBallot

def default : PrintedBallot := ⟨0, 0, 0, 0⟩

def electionField (electionId : Int32) (record : Record) : Option Int32 :=
  match record.number with
  | 1 => record.int32?
  | _ => some electionId

/-- The callbacks are null, so that what they would read is skipped. -/
def field (ballot : PrintedBallot) (record : Record) : Option PrintedBallot :=
  match record.number with
  | 1 => record.int32?.map fun id => { ballot with id := id }
  | 2 => record.int32?.map fun voterId => { ballot with voterId := voterId }
  | 3 => record.int32?.map fun castAt => { ballot with castAt := castAt }
  | 4 => (submessage? electionField ballot.electionId record).map
      fun electionId => { ballot with electionId := electionId }
  | _ => some ballot

def decode (bytes : Bytes) : Option PrintedBallot := decodeMessage field default bytes

def ofMessage (ceb : CastEncryptedBallot) : PrintedBallot :=
  ⟨ceb.id, ceb.voterId, ceb.castAt, ceb.encryptedBallot.electionId⟩

end PrintedBallot

/-- What `castBallot` makes of the response to its command. -/
def receiveReceipt (lib : Libraries) (config : Config) (msgBuf : Bytes) :
    Option PrintedBallot := do
  let (type, data) ← getResponse lib config msgBuf
  if type ≠ ResponseType.castEncryptedBallot.value then none else PrintedBallot.decode data

namespace PrintedBallot

theorem electionField_of_field (ballot : EncryptedBallot) (record : Record)
    (next : EncryptedBallot) (hfield : EncryptedBallot.field ballot record = some next) :
    electionField ballot.electionId record = some next.electionId := by
  unfold EncryptedBallot.field at hfield
  unfold electionField
  split at hfield
  · rename_i hnumber
    obtain ⟨electionId, helection, rfl⟩ := Option.map_eq_some_iff.mp hfield
    simp [hnumber, helection]
  · rename_i hnumber
    obtain ⟨entry, _, rfl⟩ := Option.map_eq_some_iff.mp hfield
    simp [hnumber, EncryptedBallot.push]
  · rename_i hone htwo
    cases hfield
    split
    · exact absurd ‹_› hone
    · rfl

theorem submessage_of_view {ballot next : EncryptedBallot} {record : Record}
    (hsubmessage : submessage? EncryptedBallot.field ballot record = some next) :
    submessage? electionField ballot.electionId record = some next.electionId := by
  unfold submessage? at hsubmessage ⊢
  split at hsubmessage
  · rename_i hwireType
    rw [if_pos hwireType]
    exact decodeMessage_of_view EncryptedBallot.electionId electionField_of_field hsubmessage
  · cases hsubmessage

theorem field_of_field (ceb : CastEncryptedBallot) (record : Record)
    (next : CastEncryptedBallot) (hfield : CastEncryptedBallot.field ceb record = some next) :
    field (ofMessage ceb) record = some (ofMessage next) := by
  unfold CastEncryptedBallot.field at hfield
  unfold field
  split at hfield
  · rename_i hnumber
    obtain ⟨id, hid, rfl⟩ := Option.map_eq_some_iff.mp hfield
    simp [hnumber, hid, ofMessage]
  · rename_i hnumber
    obtain ⟨voterId, hvoterId, rfl⟩ := Option.map_eq_some_iff.mp hfield
    simp [hnumber, hvoterId, ofMessage]
  · rename_i hnumber
    obtain ⟨castAt, hcastAt, rfl⟩ := Option.map_eq_some_iff.mp hfield
    simp [hnumber, hcastAt, ofMessage]
  · rename_i hnumber
    obtain ⟨ballot, hballot, rfl⟩ := Option.map_eq_some_iff.mp hfield
    simp [hnumber, submessage_of_view hballot, ofMessage]
  · rename_i hnumber
    cases hfield
    simp [hnumber, ofMessage]
  · rename_i hnumber
    cases hfield
    simp [hnumber, ofMessage]
  · rename_i hone htwo hthree hfour _ _
    cases hfield
    split
    · exact absurd ‹_› hone
    · exact absurd ‹_› htwo
    · exact absurd ‹_› hthree
    · exact absurd ‹_› hfour
    · rfl

/-- What the server encodes is read back. -/
theorem decode_encode (ceb : CastEncryptedBallot) :
    decode (encode ceb) = some (ofMessage ceb) :=
  decodeMessage_of_view ofMessage field_of_field (CastEncryptedBallot.decodeMessage_encode ceb)

end PrintedBallot

/-! What the server signs as a receipt. -/

section Server

variable {lib : Libraries} {config : Server.Config} {db : Database}

/-- A response is of another type, or its command was stored. -/
theorem processCommand_response_cases {currTime : Int} {bytes response : Bytes}
    (hresponse : (processCommand lib config currTime db bytes).1 = some response) :
    (∃ type data, type ≠ ResponseType.castEncryptedBallot ∧
        finishResponse lib config type data = some response) ∨
      ∃ command pending, Stores lib config currTime db bytes command pending ∧
        castResponse lib config db pending = some response := by
  have herror : ∀ error, errorResponse lib config error = some response →
      ∃ type data, type ≠ ResponseType.castEncryptedBallot ∧
        finishResponse lib config type data = some response :=
    fun error herror => ⟨_, _, by decide, herror⟩
  unfold processCommand at hresponse
  cases hauth : authenticate lib db bytes with
  | error error =>
      rw [hauth] at hresponse
      exact .inl (herror error hresponse)
  | ok result =>
      obtain ⟨command, voterId⟩ := result
      simp only [hauth, dispatch] at hresponse
      cases hhandler : handlerOf command.type with
      | getElections =>
          simp only [hhandler] at hresponse
          cases hpagination : PaginationMetadata.decode command.data with
          | none =>
              rw [hpagination] at hresponse
              exact .inl (herror _ hresponse)
          | some pagination =>
              rw [hpagination] at hresponse
              obtain ⟨elections, _, hresponse⟩ := Option.bind_eq_some_iff.mp hresponse
              obtain ⟨encoded, _, hresponse⟩ := Option.bind_eq_some_iff.mp hresponse
              exact .inl ⟨_, _, by decide, hresponse⟩
      | getVoters =>
          simp only [hhandler] at hresponse
          cases hpagination : PaginationMetadata.decode command.data with
          | none =>
              rw [hpagination] at hresponse
              exact .inl (herror _ hresponse)
          | some pagination =>
              rw [hpagination] at hresponse
              obtain ⟨encoded, _, hresponse⟩ := Option.bind_eq_some_iff.mp hresponse
              exact .inl ⟨_, _, by decide, hresponse⟩
      | getEncryptedBallots =>
          simp only [hhandler] at hresponse
          cases hrequest : CastEncryptedBallotsRequest.decode command.data with
          | none =>
              rw [hrequest] at hresponse
              exact .inl (herror _ hresponse)
          | some request =>
              rw [hrequest] at hresponse
              obtain ⟨encoded, _, hresponse⟩ := Option.bind_eq_some_iff.mp hresponse
              exact .inl ⟨_, _, by decide, hresponse⟩
      | castBallot =>
          simp only [hhandler] at hresponse
          rcases castBallot_cases lib config currTime db command.data command.signature
            voterId with ⟨error, _, hcast⟩ | ⟨pending, hchecks, hcast⟩
          · rw [hcast] at hresponse
            exact .inl (herror error hresponse)
          · rw [hcast] at hresponse
            obtain ⟨haccepted, rfl, hcastAt, hdata, hsignature⟩ :=
              castBallotChecks_eq_ok.mp hchecks
            exact .inr ⟨command, pending,
              ⟨hauth, hhandler, haccepted, hcastAt, hdata, hsignature⟩, hresponse⟩
      | invalid =>
          simp only [hhandler] at hresponse
          exact .inl (herror _ hresponse)

theorem ResponseType.value_inj {type type' : ResponseType} (heq : type.value = type'.value) :
    type = type' := by
  cases type <;> cases type' <;> first | rfl | exact absurd heq (by decide)

/-- Only the command that stored the ballot is answered with its receipt. -/
theorem processCommand_receipt {currTime : Int} {bytes response : Bytes} {parsed : Response}
    (hresponse : (processCommand lib config currTime db bytes).1 = some response)
    (hparsed : Response.decode response = some parsed)
    (htype : parsed.type = ResponseType.castEncryptedBallot.value) :
    ∃ command pending, Stores lib config currTime db bytes command pending ∧
      parsed.data = encode (castReceipt db pending) := by
  rcases processCommand_response_cases hresponse with
    ⟨type, data, hother, hfinish⟩ | ⟨command, pending, hstores, hcast⟩
  · obtain ⟨hsame, _⟩ := finishResponse_parsed hfinish hparsed
    exact absurd (ResponseType.value_inj (hsame.symm.trans htype)) hother
  · obtain ⟨signature, hdecode⟩ := castResponse_decode hcast
    rw [hparsed, Option.some.injEq] at hdecode
    exact ⟨command, pending, hstores, by rw [hdecode]⟩

end Server

/-! The receipt over the network. -/

section Runs

variable {lib : Libraries} {client : Config} {config : Server.Config} {world : AuditWorld}

/-- The answer was made by a command whose ballots are still stored. -/
def Retained (lib : Libraries) (config : Server.Config) (db : Database) (answer : Answer) :
    Prop :=
  ∃ currTime,
    (processCommand lib config currTime answer.db answer.command).1 = some answer.response ∧
      KeepsBallots (processCommand lib config currTime answer.db answer.command).2 db

theorem Retained.later {db db' : Database} {answer : Answer}
    (hretained : Retained lib config db answer) (hkeeps : KeepsBallots db db') :
    Retained lib config db' answer := by
  obtain ⟨currTime, hprocessed, hkept⟩ := hretained
  exact ⟨currTime, hprocessed, hkept.trans hkeeps⟩

theorem keepsBallots_of_auditStep {event : AuditEvent} {world' : AuditWorld}
    (hstep : AuditStep lib client config world event world') :
    KeepsBallots world.db world'.db := by
  cases hstep with
  | process currTime bytes => exact .processCommand lib config currTime world.db bytes
  | tick db hgenerate => exact keepsBallots_of_tallied (generateTallies_tallied hgenerate)
  | call electionId candidateId encrypted hidle => exact .refl world.db
  | deliver call msgBuf hcall hgenuine =>
      cases call.receive lib client msgBuf with
      | again next => exact .refl world.db
      | returned result => exact .refl world.db
  | fail call hcall => exact .refl world.db

theorem keepsBallots_of_audits {later : AuditWorld}
    (hrun : Reaches (AuditStep lib client config) world later) :
    KeepsBallots world.db later.db := by
  induction hrun with
  | refl => exact .refl world.db
  | tail hrun hstep ih => exact ih.trans (keepsBallots_of_auditStep hstep)

theorem answers_of_auditStep {event : AuditEvent} {world' : AuditWorld} {answer : Answer}
    (hstep : AuditStep lib client config world event world')
    (hanswer : answer ∈ world'.answers) :
    answer ∈ world.answers ∨ Retained lib config world'.db answer := by
  cases hstep with
  | process currTime bytes =>
      rcases List.mem_append.mp hanswer with hold | hnew
      · exact .inl hold
      · obtain ⟨response, hresponse, rfl⟩ := List.mem_map.mp hnew
        exact .inr ⟨currTime, Option.mem_toList.mp hresponse, .refl _⟩
  | tick db hgenerate => exact .inl hanswer
  | call electionId candidateId encrypted hidle => exact .inl hanswer
  | deliver call msgBuf hcall hgenuine =>
      cases hreceive : call.receive lib client msgBuf with
      | again next =>
          rw [hreceive] at hanswer
          exact .inl hanswer
      | returned result =>
          rw [hreceive] at hanswer
          exact .inl hanswer
  | fail call hcall => exact .inl hanswer

theorem retained_of_run {start : Database}
    (hrun : Reaches (AuditStep lib client config) ⟨start, [], none, []⟩ world) :
    ∀ answer ∈ world.answers, Retained lib config world.db answer := by
  induction hrun with
  | refl =>
      intro answer hanswer
      cases hanswer
  | tail hrun hstep ih =>
      intro answer hanswer
      rcases answers_of_auditStep hstep hanswer with hold | hnew
      · exact (ih answer hold).later (keepsBallots_of_auditStep hstep)
      · exact hnew

theorem receiveReceipt_eq_some {msgBuf : Bytes} {receipt : PrintedBallot}
    (hreceipt : receiveReceipt lib client msgBuf = some receipt) :
    ∃ data, getResponse lib client msgBuf =
        some (ResponseType.castEncryptedBallot.value, data) ∧
      PrintedBallot.decode data = some receipt := by
  obtain ⟨⟨type, data⟩, hresponse, hdecode⟩ := Option.bind_eq_some_iff.mp hreceipt
  simp only at hdecode
  split at hdecode
  · cases hdecode
  · rename_i htype
    rw [not_not.mp htype] at hresponse
    exact ⟨data, hresponse, hdecode⟩

end Runs

/-- Over any network, what the client prints as the receipt of a cast is a ballot that the
server accepted from the voter it names, and the ballot stays stored. -/
theorem printed_receipt_is_stored {lib : Libraries} {client : Config}
    {config : Server.Config} {start : Database} {world later : AuditWorld} {msgBuf : Bytes}
    {receipt : PrintedBallot}
    (hrun : Reaches (AuditStep lib client config) ⟨start, [], none, []⟩ world)
    (hgenuine : Genuine lib client world msgBuf)
    (hreceipt : receiveReceipt lib client msgBuf = some receipt)
    (hlater : Reaches (AuditStep lib client config) world later) :
    ∃ answer ∈ world.answers, ∃ command, ∃ row ∈ later.db.castEncryptedBallots.rows,
      authenticate lib answer.db answer.command = .ok (command, row.voterId) ∧
        handlerOf command.type = .castBallot ∧
          row.castCommandData = command.data ∧ row.voterSignature = command.signature ∧
            ∃ electionId : Int32, row.electionId = electionId.toInt ∧
              receipt = ⟨Int32.ofInt row.id, Int32.ofInt row.voterId,
                Int32.ofInt row.castAt, electionId⟩ := by
  obtain ⟨data, hresponse, hdecode⟩ := receiveReceipt_eq_some hreceipt
  obtain ⟨answer, hanswer, hsigned⟩ := hgenuine _ _ hresponse
  obtain ⟨parsed, hparsed, hpair⟩ := Option.map_eq_some_iff.mp hsigned
  obtain ⟨htype, rfl⟩ := Prod.mk.inj hpair
  obtain ⟨currTime, hprocessed, hkept⟩ := retained_of_run hrun answer hanswer
  obtain ⟨command, pending, hstores, hdata⟩ := processCommand_receipt hprocessed hparsed htype
  rw [hdata, PrintedBallot.decode_encode, Option.some.injEq] at hdecode
  have hkeeps := hkept.trans (keepsBallots_of_audits hlater)
  rw [hstores.processCommand_eq] at hkeeps
  have hrow := hkeeps.ballots (castEncryptedBallotRow pending
    answer.db.castEncryptedBallots.nextval) (by simp [insertBallot_ballots])
  exact ⟨answer, hanswer, command, _, hrow, hstores.authenticated, hstores.dispatched,
    hstores.commandData, hstores.commandSignature, pending.ballot.electionId, rfl,
    hdecode.symm⟩

/-- The client reads the receipt that an honest server signs. -/
theorem Session.receiveReceipt_castResponse {lib : Libraries} {client : Config}
    {config : Server.Config} {db : Database} {server : Bytes → Option Bytes}
    (session : Session lib client config db server) (pending : PendingBallot) :
    ∃ response, castResponse lib config db pending = some response ∧
      receiveReceipt lib client response =
        some (PrintedBallot.ofMessage (castReceipt db pending)) := by
  obtain ⟨response, hfinish, hget⟩ := session.getResponse_finishResponse .castEncryptedBallot
    (encode (castReceipt db pending))
  refine ⟨response, ?_, ?_⟩
  · rw [castResponse, session.encodeMessage_eq]
    exact hfinish
  · simp [receiveReceipt, hget, PrintedBallot.decode_encode]

theorem printed_receipt_is_stored_voted :
    ∃ world : AuditWorld, ∃ msgBuf receipt,
      world.db = votedDatabase ∧
        receiveReceipt SmallElection.referenceLib smallConfig msgBuf = some receipt ∧
        ∃ answer ∈ world.answers, ∃ command,
          ∃ row ∈ votedDatabase.castEncryptedBallots.rows,
            authenticate SmallElection.referenceLib answer.db answer.command =
                .ok (command, row.voterId) ∧
              handlerOf command.type = .castBallot ∧
                row.castCommandData = command.data ∧
                  row.voterSignature = command.signature ∧
                    ∃ electionId : Int32, row.electionId = electionId.toInt ∧
                      receipt = ⟨Int32.ofInt row.id, Int32.ofInt row.voterId,
                        Int32.ofInt row.castAt, electionId⟩ := by
  have session := smallSessionOver SmallElection.reference.database
    SmallElection.reference.voterOfKey?_voterKey
  obtain ⟨response, hresponse, hreceipt⟩ := session.receiveReceipt_castResponse
    (SmallElection.referencePending [])
  have hvote := @AuditStep.process SmallElection.referenceLib smallConfig
    SmallElection.reference.config ⟨SmallElection.reference.database, [], none, []⟩ 5
    (encode (SmallElection.referenceVote CommandType.castBallot.value []))
  simp only [SmallElection.reference_stores_vote.processCommand_eq, hresponse,
    Option.toList_some, List.map_cons, List.map_nil, List.nil_append] at hvote
  have hanswer : (⟨encode (SmallElection.referenceVote CommandType.castBallot.value []),
      SmallElection.reference.database, response⟩ : Answer) ∈
        [(⟨encode (SmallElection.referenceVote CommandType.castBallot.value []),
          SmallElection.reference.database, response⟩ : Answer)] := List.mem_singleton.mpr rfl
  exact ⟨_, response, _, rfl, hreceipt,
    printed_receipt_is_stored (Reaches.single hvote) (genuine_of_mem hanswer) hreceipt .refl⟩

end VotingSystem.Client
