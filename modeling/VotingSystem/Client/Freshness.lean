import VotingSystem.Client.AuditLoop
import VotingSystem.Client.TallyDecryption

namespace VotingSystem.Client

open VotingSystem.Data VotingSystem.Crypto VotingSystem.Number VotingSystem.Protos
open VotingSystem.Storage VotingSystem.Server

/-! The audit over a network that keeps the responses of the server and delivers
any of them at any time. -/

/-- A response, the command it answers and the tables it was made from. -/
structure Answer where
  command : Bytes
  db : Database
  response : Bytes

namespace Answer

def signed (answer : Answer) : Option (UInt32 × Bytes) :=
  (Response.decode answer.response).map fun parsed => (parsed.type, parsed.data)

def request (answer : Answer) : Option CastEncryptedBallotsRequest := do
  let command ← Command.decode answer.command
  CastEncryptedBallotsRequest.decode command.data

end Answer

structure AuditWorld where
  db : Database
  answers : List Answer
  call : Option AuditCall
  verdicts : List Verdict

namespace AuditWorld

def after (world : AuditWorld) (call : AuditCall) : AuditProgress → AuditWorld
  | .again loop => { world with call := some ⟨loop, call.stored⟩ }
  | .returned result =>
      { world with
        call := none
        verdicts := call.verdict result :: world.verdicts }

end AuditWorld

inductive AuditEvent
  | process (currTime : Int) (bytes : Bytes)
  | tick
  | call (electionId candidateId : Int32) (encrypted : Bytes)
  | deliver (msgBuf : Bytes)
  | fail

section Step

variable (lib : Libraries) (client : Config) (config : Server.Config)

/-- Signatures are ideal: what the client accepts, the server has signed. -/
def Genuine (world : AuditWorld) (msgBuf : Bytes) : Prop :=
  ∀ type data, getResponse lib client msgBuf = some (type, data) →
    ∃ answer ∈ world.answers, answer.signed = some (type, data)

/-- The server answers any command of any party. The client makes one call after
another, and a call can fail at any time. -/
inductive AuditStep : AuditWorld → AuditEvent → AuditWorld → Prop
  | process (world : AuditWorld) (currTime : Int) (bytes : Bytes) :
      AuditStep world (.process currTime bytes)
        { world with
          db := (processCommand lib config currTime world.db bytes).2
          answers := world.answers ++
            (processCommand lib config currTime world.db bytes).1.toList.map
              (Answer.mk bytes world.db) }
  | tick (world : AuditWorld) (db : Database)
      (hgenerate : generateTallies config world.db = some db) :
      AuditStep world .tick { world with db := db }
  | call (world : AuditWorld) (electionId candidateId : Int32) (encrypted : Bytes)
      (hidle : world.call = none) :
      AuditStep world (.call electionId candidateId encrypted)
        { world with
          call := some ⟨.start electionId candidateId encrypted, world.db⟩ }
  | deliver (world : AuditWorld) (call : AuditCall) (msgBuf : Bytes)
      (hcall : world.call = some call) (hgenuine : Genuine lib client world msgBuf) :
      AuditStep world (.deliver msgBuf)
        (world.after call (call.receive lib client msgBuf))
  | fail (world : AuditWorld) (call : AuditCall) (hcall : world.call = some call) :
      AuditStep world .fail (world.after call (.returned false))

/-- An answer to the request of this round, made from the ballots that were stored
when the call was made. -/
structure Fresh (call : AuditCall) (answer : Answer) : Prop where
  request : answer.request = some ⟨⟨call.lastId⟩, call.electionId⟩
  ballots : electionBallots answer.db call.electionId.toInt =
    electionBallots call.stored call.electionId.toInt

/-- Every page that the client accepts is a fresh one. -/
def FreshPage (world : AuditWorld) : AuditEvent → Prop
  | .deliver msgBuf => ∀ call, world.call = some call → ∀ data,
      getResponse lib client msgBuf =
          some (ResponseType.castEncryptedBallots.value, data) →
        ∃ answer ∈ world.answers,
          answer.signed = some (ResponseType.castEncryptedBallots.value, data) ∧
            Fresh call answer
  | _ => True

end Step

/-! What the network can deliver: an honest exchange, or an old response. -/

section Network

variable {lib : Libraries} {client : Config} {config : Server.Config}

theorem getResponse_eq_some {msgBuf data : Bytes} {type : UInt32}
    (hresponse : getResponse lib client msgBuf = some (type, data)) :
    ∃ parsed, Response.decode msgBuf = some parsed ∧ parsed.type = type ∧
      parsed.data = data := by
  unfold getResponse at hresponse
  split at hresponse
  · contradiction
  · rename_i parsed hdecode
    split_ifs at hresponse
    simp only [Option.some.injEq, Prod.mk.injEq] at hresponse
    exact ⟨parsed, hdecode, hresponse⟩

theorem Answer.signed_of_getResponse {answer : Answer} {data : Bytes} {type : UInt32}
    (hresponse : getResponse lib client answer.response = some (type, data)) :
    answer.signed = some (type, data) := by
  obtain ⟨parsed, hdecode, rfl, rfl⟩ := getResponse_eq_some hresponse
  rw [signed, hdecode, Option.map_some]

/-- Whatever the server has sent can be delivered. -/
theorem genuine_of_mem {world : AuditWorld} {answer : Answer}
    (hanswer : answer ∈ world.answers) : Genuine lib client world answer.response :=
  fun _ _ hresponse => ⟨answer, hanswer, answer.signed_of_getResponse hresponse⟩

/-- An empty page, whenever and for whatever election it was signed, makes the
product of nothing pass for any candidate. -/
theorem replayed_empty_page {modulus : Modulus} (hsize : modulus.n < 2 ^ 2048)
    (hpub : client.serverPaillierPubKey = pubHex modulus) {world : AuditWorld}
    (hidle : world.call = none) {answer : Answer} (hanswer : answer ∈ world.answers)
    (hpage : receivePage lib client answer.response = some [])
    (electionId candidateId : Int32) :
    Reaches (AuditStep lib client config) world
      { world with
        verdicts :=
          ⟨electionId, candidateId, ciphertextBytes 1, world.db, true⟩ ::
            world.verdicts } := by
  have hcompare : ((AuditLoop.start electionId candidateId (ciphertextBytes 1)).collect
      []).compare client = true := by
    rw [AuditLoop.compare_iff hsize hpub]
    have hone : 1 % modulus.n ^ 2 = 1 := Nat.mod_eq_of_lt (one_lt_square modulus)
    simp only [AuditLoop.collect, AuditLoop.start, candidateCiphertexts, List.flatMap_nil,
      List.append_nil, List.map_nil, List.prod_nil, hone]
  have hreceive : (AuditLoop.start electionId candidateId (ciphertextBytes 1)).receive lib
      client answer.response = .returned true := by
    simp only [AuditLoop.receive, hpage, List.getLast?_nil, hcompare]
  obtain ⟨db, answers, call, verdicts⟩ := world
  simp only at hidle hanswer
  subst hidle
  generalize ciphertextBytes 1 = encrypted at hreceive ⊢
  have hcall := @AuditStep.call lib client config ⟨db, answers, none, verdicts⟩ electionId
    candidateId encrypted rfl
  have hdeliver := @AuditStep.deliver lib client config
    ⟨db, answers, some ⟨.start electionId candidateId encrypted, db⟩, verdicts⟩
    ⟨.start electionId candidateId encrypted, db⟩ answer.response rfl
    (genuine_of_mem hanswer)
  rw [hreceive] at hdeliver
  exact (Reaches.single hcall).trans (.single hdeliver)

/-- An honest round: the server answers the request, and the answer comes next. -/
theorem Session.reaches_round {world : AuditWorld} {server : Bytes → Option Bytes}
    (session : Session lib client config world.db server) (currTime : Int)
    {call : AuditCall} (hcall : world.call = some call)
    (hballots : electionBallots world.db call.electionId.toInt =
      electionBallots call.stored call.electionId.toInt) :
    ∃ response,
      ((call.request lib client).bind fun request =>
        (processCommand lib config currTime world.db request).1) = some response ∧
        ∃ answers,
          Reaches (Restricted (AuditStep lib client config) (FreshPage lib client)) world
            (AuditWorld.after { world with answers := answers } call
              (call.receive lib client response)) := by
  obtain ⟨command, hdata, hsend, response, hresponse, hprocess⟩ :=
    session.exchange call.electionId call.lastId
  have hanswered := hprocess currTime world.db ⟨rfl, rfl, rfl⟩
  have hrequest : call.request lib client = some (encode command) := by
    rw [hdata] at hsend
    simp only [AuditLoop.request, session.encodeMessage_eq, Option.bind_eq_bind,
      Option.bind_some, hsend]
  refine ⟨response, ?_, world.answers ++ [⟨encode command, world.db, response⟩], ?_⟩
  · rw [hrequest, Option.bind_some, hanswered]
  · have hfirst := @AuditStep.process lib client config world currTime (encode command)
    simp only [hanswered, Option.toList_some, List.map_cons, List.map_nil] at hfirst
    have hmem : (⟨encode command, world.db, response⟩ : Answer) ∈
        world.answers ++ [⟨encode command, world.db, response⟩] := by simp
    have hgenuine := @genuine_of_mem lib client
      { world with answers := world.answers ++ [⟨encode command, world.db, response⟩] }
      ⟨encode command, world.db, response⟩ hmem
    have hsecond := @AuditStep.deliver lib client config
      { world with answers := world.answers ++ [⟨encode command, world.db, response⟩] }
      call response hcall hgenuine
    refine (Reaches.single ⟨hfirst, trivial⟩).trans (.single ⟨hsecond, ?_⟩)
    intro other hother data haccepted
    obtain rfl : call = other := Option.some.inj (hcall.symm.trans hother)
    refine ⟨_, hmem, Answer.signed_of_getResponse haccepted, ?_, hballots⟩
    simp only [Answer.request, Command.decode_encode, hdata, Option.bind_eq_bind,
      Option.bind_some, CastEncryptedBallotsRequest.decode_encode]

/-- Over an honest network the call returns what `verifyTallyEncryption` does, and
every page is fresh. -/
theorem Session.reaches_run (currTime : Int) (fuel : Nat) {world : AuditWorld}
    {server : Bytes → Option Bytes}
    (session : Session lib client config world.db server)
    {call : AuditCall} (hcall : world.call = some call)
    (hballots : electionBallots world.db call.electionId.toInt =
      electionBallots call.stored call.electionId.toInt) :
    ∃ answers,
      Reaches (Restricted (AuditStep lib client config) (FreshPage lib client)) world
        { world with
          answers := answers
          call := none
          verdicts :=
            call.verdict
              (call.run lib client
                (fun request => (processCommand lib config currTime world.db request).1)
                fuel) :: world.verdicts } := by
  induction fuel generalizing world call with
  | zero => exact ⟨world.answers, .single ⟨.fail world call hcall, trivial⟩⟩
  | succ fuel ih =>
      obtain ⟨response, hresponse, answers, hround⟩ :=
        session.reaches_round currTime hcall hballots
      simp only [AuditLoop.run, hresponse]
      cases hreceive : call.receive lib client response with
      | returned result =>
          rw [hreceive] at hround
          exact ⟨answers, hround⟩
      | again next =>
          rw [hreceive] at hround
          obtain ⟨cebs, ceb, _, _, rfl⟩ := AuditLoop.receive_eq_again hreceive
          obtain ⟨later, hlater⟩ := @ih
            (AuditWorld.after { world with answers := answers } call
              (.again { call.collect cebs with lastId := ceb.id }))
            session _ rfl hballots
          exact ⟨later, hround.trans hlater⟩

theorem Session.reaches_verifyTallyEncryption (currTime : Int) (fuel : Nat)
    {world : AuditWorld} {server : Bytes → Option Bytes}
    (session : Session lib client config world.db server) (hidle : world.call = none)
    (electionId candidateId : Int32) (encrypted : Bytes) :
    ∃ answers,
      Reaches (Restricted (AuditStep lib client config) (FreshPage lib client)) world
        { world with
          answers := answers
          call := none
          verdicts :=
            ⟨electionId, candidateId, encrypted, world.db,
              verifyTallyEncryption lib client
                (fun request => (processCommand lib config currTime world.db request).1)
                electionId candidateId encrypted fuel⟩ :: world.verdicts } := by
  have hcall := @AuditStep.call lib client config world electionId candidateId encrypted hidle
  obtain ⟨answers, hrun⟩ := @Session.reaches_run _ _ _ currTime fuel
    { world with call := some ⟨.start electionId candidateId encrypted, world.db⟩ } _
    session _ rfl rfl
  rw [← verifyTallyEncryption_eq_run] at hrun
  exact ⟨answers, (Reaches.single ⟨hcall, trivial⟩).trans hrun⟩

/-- An honest session accepts the product of what is stored. -/
theorem Session.accepts_product {modulus : Modulus} (hsize : modulus.n < 2 ^ 2048)
    (hpub : client.serverPaillierPubKey = pubHex modulus) {db : Database}
    {server : Bytes → Option Bytes} (session : Session lib client config db server) (hcolumns : db.IntColumns)
    (hpositive : ∀ ballot ∈ db.castEncryptedBallots.rows, 0 < ballot.id)
    (electionId candidateId : Int32) {fuel : Nat}
    (hfuel : db.castEncryptedBallots.rows.length < fuel) :
    verifyTallyEncryption lib client server electionId candidateId
      (ciphertextBytes
        (((storedCiphertexts db electionId.toInt candidateId.toInt).map mpzImport).prod %
          modulus.n ^ 2)) fuel = true := by
  obtain ⟨ciphertexts, hcollect, hperm⟩ := collectCiphertexts_stored hcolumns hpositive
    electionId candidateId (session.fetchBallots_eq electionId) hfuel
  rw [verifyTallyEncryption_eq_run, AuditLoop.run_eq]
  simp only [AuditLoop.start, hcollect]
  rw [AuditLoop.compare_iff hsize hpub, List.nil_append,
    (hperm.map mpzImport).prod_eq]

end Network

/-! The runs. -/

section Answers

variable {lib : Libraries} {client : Config} {config : Server.Config}

/-- A response that the server made from ballots that are still stored. -/
structure Recorded (lib : Libraries) (config : Server.Config) (db : Database)
    (answer : Answer) : Prop where
  kept : KeepsBallots answer.db db
  processed : ∃ currTime,
    (processCommand lib config currTime answer.db answer.command).1 = some answer.response

theorem Recorded.page {db : Database} {answer : Answer}
    (hrecorded : Recorded lib config db answer) {data : Bytes}
    (hsigned : answer.signed = some (ResponseType.castEncryptedBallots.value, data))
    {request : CastEncryptedBallotsRequest} (hrequest : answer.request = some request) :
    data = encode (encryptedBallotsMessage answer.db request) := by
  obtain ⟨currTime, hprocess⟩ := hrecorded.processed
  obtain ⟨parsed, hparsed, hpair⟩ := Option.map_eq_some_iff.mp hsigned
  obtain ⟨htype, rfl⟩ := Prod.mk.inj hpair
  obtain ⟨command, found, hcommand, hfound, hdata⟩ :=
    processCommand_page hprocess hparsed htype
  have hsame : answer.request = some found := by
    simp only [Answer.request, hcommand, Option.bind_eq_bind, Option.bind_some, hfound]
  rw [hrequest, Option.some.injEq] at hsame
  rw [hdata, hsame]

/-- Ballots keep their entries, so the same ballots make the same page. -/
theorem encryptedBallotsMessage_eq {first second later : Database}
    (hfirst : KeepsBallots first later) (hsecond : KeepsBallots second later)
    {request : CastEncryptedBallotsRequest}
    (hballots : electionBallots first request.electionId.toInt =
      electionBallots second request.electionId.toInt) :
    encryptedBallotsMessage first request = encryptedBallotsMessage second request := by
  rw [encryptedBallotsMessage, encryptedBallotsMessage, hballots]
  congr 1
  apply List.map_congr_left
  intro row hrow
  have hin : row ∈ electionBallots second request.electionId.toInt := mem_of_mem_page _ hrow
  have hout := hin
  rw [← hballots] at hout
  have hentries := (hfirst.ballotEntryRows_eq (List.mem_of_mem_filter hout)).symm.trans
    (hsecond.ballotEntryRows_eq (List.mem_of_mem_filter hin))
  rw [castEncryptedBallotMessage, castEncryptedBallotMessage, hentries]

/-- A fresh page is the next page of the ballots that were stored at the call. -/
theorem FreshPage.storedPage_eq {world : AuditWorld} {call : AuditCall} {msgBuf : Bytes}
    (hanswers : ∀ answer ∈ world.answers, Recorded lib config world.db answer)
    (hstored : KeepsBallots call.stored world.db) (hcall : world.call = some call)
    (hfresh : FreshPage lib client world (.deliver msgBuf))
    {cebs : List CastEncryptedBallot}
    (hpage : receivePage lib client msgBuf = some cebs) :
    storedPage call.stored call.electionId call.lastId = some cebs := by
  obtain ⟨⟨type, data⟩, haccepted, hdecode⟩ := Option.bind_eq_some_iff.mp hpage
  simp only at hdecode
  split at hdecode
  · contradiction
  · rename_i htype
    obtain rfl := not_not.mp htype
    obtain ⟨answer, hanswer, hsigned, hrequest, hballots⟩ :=
      hfresh call hcall data haccepted
    have hrecorded := hanswers answer hanswer
    have hdata := hrecorded.page hsigned hrequest
    rw [encryptedBallotsMessage_eq hrecorded.kept hstored hballots] at hdata
    rw [hdata, CastEncryptedBallots.decode_encode] at hdecode
    exact hdecode

end Answers

structure SoundAudits (lib : Libraries) (config : Server.Config) (modulus : Modulus)
    (world : AuditWorld) : Prop where
  positive : PositiveIds world.db
  answers : ∀ answer ∈ world.answers, Recorded lib config world.db answer
  stored : ∀ call, world.call = some call → KeepsBallots call.stored world.db
  complete : ∀ call, world.call = some call → call.stored.IntColumns → Complete call
  right : ∀ verdict ∈ world.verdicts, verdict.stored.IntColumns → verdict.result = true →
    verdict.Right modulus

section Runs

variable {lib : Libraries} {client : Config} {config : Server.Config} {modulus : Modulus}

theorem keepsBallots_of_tallied {elections : List Int} {db db' : Database}
    (htallied : Tallied elections db db') : KeepsBallots db db' where
  ballots := by
    rw [htallied.ballots]
    exact fun ballot hballot => hballot
  entries := by
    intro ballot hballot
    rw [entriesOf, htallied.entries, entriesOf]

namespace SoundAudits

variable {world : AuditWorld}

theorem later (hsound : SoundAudits lib config modulus world) {db : Database}
    (hkeeps : KeepsBallots world.db db) (hpositive : PositiveIds db) :
    SoundAudits lib config modulus { world with db := db } where
  positive := hpositive
  answers := fun answer hanswer =>
    ⟨(hsound.answers answer hanswer).kept.trans hkeeps,
      (hsound.answers answer hanswer).processed⟩
  stored := fun call hcall => (hsound.stored call hcall).trans hkeeps
  complete := hsound.complete
  right := hsound.right

theorem process (hsound : SoundAudits lib config modulus world) (currTime : Int)
    (bytes : Bytes) :
    SoundAudits lib config modulus
      { world with
        db := (processCommand lib config currTime world.db bytes).2
        answers := world.answers ++
          (processCommand lib config currTime world.db bytes).1.toList.map
            (Answer.mk bytes world.db) } := by
  have hkeeps := KeepsBallots.processCommand lib config currTime world.db bytes
  have hlater := hsound.later hkeeps (hsound.positive.processCommand currTime bytes)
  refine ⟨hlater.positive, fun answer hanswer => ?_, hlater.stored, hlater.complete,
    hlater.right⟩
  rcases List.mem_append.mp hanswer with hold | hnew
  · exact hlater.answers answer hold
  · obtain ⟨response, hresponse, rfl⟩ := List.mem_map.mp hnew
    exact ⟨hkeeps, currTime, Option.mem_toList.mp hresponse⟩

theorem call (hsound : SoundAudits lib config modulus world) (electionId candidateId : Int32)
    (encrypted : Bytes) :
    SoundAudits lib config modulus
      { world with
        call := some ⟨.start electionId candidateId encrypted, world.db⟩ } where
  positive := hsound.positive
  answers := hsound.answers
  stored := by
    intro call hcall
    cases hcall
    exact .refl world.db
  complete := by
    intro call hcall hcolumns
    cases hcall
    exact .start hsound.positive hcolumns electionId candidateId encrypted
  right := hsound.right

theorem returned (hsound : SoundAudits lib config modulus world) {call : AuditCall}
    {result : Bool}
    (hright : call.stored.IntColumns → result = true → (call.verdict result).Right modulus) :
    SoundAudits lib config modulus (world.after call (.returned result)) where
  positive := hsound.positive
  answers := hsound.answers
  stored := by
    intro other hother
    cases hother
  complete := by
    intro other hother
    cases hother
  right := by
    intro verdict hverdict
    rcases List.mem_cons.mp hverdict with rfl | hold
    · exact hright
    · exact hsound.right verdict hold

theorem again (hsound : SoundAudits lib config modulus world) {call : AuditCall}
    {next : AuditLoop} (hcall : world.call = some call)
    (hcomplete : call.stored.IntColumns → Complete ⟨next, call.stored⟩) :
    SoundAudits lib config modulus (world.after call (.again next)) where
  positive := hsound.positive
  answers := hsound.answers
  stored := by
    intro other hother
    cases hother
    exact hsound.stored call hcall
  complete := by
    intro other hother
    cases hother
    exact hcomplete
  right := hsound.right

theorem deliver (hsize : modulus.n < 2 ^ 2048)
    (hpub : client.serverPaillierPubKey = pubHex modulus)
    (hsound : SoundAudits lib config modulus world) {call : AuditCall} {msgBuf : Bytes}
    (hcall : world.call = some call)
    (hfresh : FreshPage lib client world (.deliver msgBuf)) :
    SoundAudits lib config modulus (world.after call (call.receive lib client msgBuf)) := by
  have hpage : ∀ cebs, receivePage lib client msgBuf = some cebs →
      storedPage call.stored call.electionId call.lastId = some cebs := fun cebs =>
    hfresh.storedPage_eq hsound.answers (hsound.stored call hcall) hcall
  cases hreceive : call.receive lib client msgBuf with
  | again next =>
      apply hsound.again hcall
      intro hcolumns
      exact (hsound.complete call hcall hcolumns).again hpage hreceive
  | returned result =>
      apply hsound.returned
      rintro hcolumns rfl
      exact (hsound.complete call hcall hcolumns).right hpage hsize hpub hreceive

theorem step (hsize : modulus.n < 2 ^ 2048)
    (hpub : client.serverPaillierPubKey = pubHex modulus)
    (hsound : SoundAudits lib config modulus world) {event : AuditEvent}
    {world' : AuditWorld}
    (hstep : Restricted (AuditStep lib client config) (FreshPage lib client) world event
      world') :
    SoundAudits lib config modulus world' := by
  obtain ⟨hstep, hfresh⟩ := hstep
  cases hstep with
  | process currTime bytes => exact hsound.process currTime bytes
  | tick db hgenerate =>
      have htallied := generateTallies_tallied hgenerate
      exact hsound.later (keepsBallots_of_tallied htallied)
        (hsound.positive.of_tallied htallied)
  | call electionId candidateId encrypted hidle =>
      exact hsound.call electionId candidateId encrypted
  | deliver call msgBuf hcall hgenuine => exact hsound.deliver hsize hpub hcall hfresh
  | fail call hcall =>
      apply hsound.returned
      intro hcolumns hfalse
      cases hfalse

end SoundAudits

/-- When every page that the client accepts is a fresh one, every accepted
ciphertext is the product that the call was about. -/
theorem verdicts_right_of_freshPages (lib : Libraries) (client : Config)
    (config : Server.Config) (modulus : Modulus) (hsize : modulus.n < 2 ^ 2048)
    (hpub : client.serverPaillierPubKey = pubHex modulus) (start : Database)
    (hpositive : PositiveIds start) (world : AuditWorld)
    (hrun : Reaches (Restricted (AuditStep lib client config) (FreshPage lib client))
      ⟨start, [], none, []⟩ world) :
    ∀ verdict ∈ world.verdicts, verdict.stored.IntColumns → verdict.result = true →
      verdict.Right modulus := by
  have hinitial : SoundAudits lib config modulus ⟨start, [], none, []⟩ :=
    ⟨hpositive, by simp, by simp, by simp, by simp⟩
  have hfinal : SoundAudits lib config modulus world := by
    apply hrun.invariant hinitial
    intro source event target hsource hstep
    exact hsource.step hsize hpub hstep
  exact hfinal.right

end Runs

/-! The small election: an honest audit of the vote, and an audit that is shown the
page signed before the vote. -/

theorem votedDatabase_positiveIds : PositiveIds votedDatabase where
  nextval := by decide
  ballots := votedDatabase_positiveKeys.ballots

theorem verdicts_right_of_freshPages_voted :
    ∃ world,
      Reaches
          (Restricted
            (AuditStep SmallElection.referenceLib smallConfig SmallElection.reference.config)
            (FreshPage SmallElection.referenceLib smallConfig))
          ⟨votedDatabase, [], none, []⟩ world ∧
        ∃ verdict ∈ world.verdicts,
          verdict.result = true ∧ verdict.Right KeyPair.reference.modulus := by
  have session := smallSessionOver votedDatabase SmallElection.reference.voterOfKey?_voterKey
  have haccepted := session.accepts_product KeyPair.reference.n_lt rfl
    votedDatabase_intColumns votedDatabase_positiveIds.ballots 1 1 (by decide : _ < 2)
  generalize ciphertextBytes _ = product at haccepted
  obtain ⟨answers, hrun⟩ := @Session.reaches_verifyTallyEncryption _ _ _ 5 2
    ⟨votedDatabase, [], none, []⟩ _ session rfl 1 1 product
  simp only [haccepted] at hrun
  exact ⟨_, hrun, _, List.mem_cons_self, rfl,
    verdicts_right_of_freshPages _ _ _ _ KeyPair.reference.n_lt rfl _
      votedDatabase_positiveIds _ hrun _ List.mem_cons_self votedDatabase_intColumns rfl⟩

theorem storedCiphertexts_voted :
    storedCiphertexts votedDatabase 1 1 =
      [ciphertextBytes (KeyPair.reference.modulus.encrypt (2 ^ 56) 1)] := by
  have hballots : votedDatabase.castEncryptedBallots.rows =
      [castEncryptedBallotRow (SmallElection.referencePending []) 1] := rfl
  have helection :
      (castEncryptedBallotRow (SmallElection.referencePending []) 1).electionId = 1 := rfl
  have hid : (castEncryptedBallotRow (SmallElection.referencePending []) 1).id = 1 := rfl
  have hkey : SmallElection.reference.key = KeyPair.reference := rfl
  simp [storedCiphertexts, electionBallots, entriesOf, hballots, helection, hid,
    votedDatabase_entries, hkey]

theorem empty_not_right :
    ¬ (⟨1, 1, ciphertextBytes 1, votedDatabase, true⟩ : Verdict).Right
      KeyPair.reference.modulus := by
  intro hright
  have hvote := @decryptedPlaintext_encrypt KeyPair.reference.modulus KeyPair.reference.n_lt
    (2 ^ 56) 1 (Nat.coprime_one_left _)
  have hlt := KeyPair.reference.modulus.encrypt_lt (2 ^ 56) 1
  have hone : (1 : Int32).toInt = 1 := by decide
  simp only [Verdict.Right, hone, storedCiphertexts_voted, List.map_singleton,
    List.prod_singleton,
    mpzImport_ciphertextBytes (lt_ciphertext_of_lt_square KeyPair.reference.n_lt hlt),
    Nat.mod_eq_of_lt hlt] at hright
  rw [← hright, decryptedPlaintext_zero, KeyPair.reference.encodedOne_mod] at hvote
  exact absurd hvote (by norm_num)

theorem receivePage_before_vote {response : Bytes}
    (hresponse : getResponse SmallElection.referenceLib smallConfig response =
      some (ResponseType.castEncryptedBallots.value,
        encode (encryptedBallotsMessage SmallElection.reference.database ⟨⟨0⟩, 1⟩))) :
    receivePage SmallElection.referenceLib smallConfig response = some [] := by
  have hempty : encryptedBallotsMessage SmallElection.reference.database ⟨⟨0⟩, 1⟩ = ⟨[]⟩ :=
    rfl
  rw [hempty] at hresponse
  simp [receivePage, hresponse]

/-- A page signed before the vote makes the product of nothing pass after it. -/
theorem replayed_page_accepted :
    ∃ world,
      Reaches
          (AuditStep SmallElection.referenceLib smallConfig SmallElection.reference.config)
          ⟨SmallElection.reference.database, [], none, []⟩ world ∧
        world.db = votedDatabase ∧
        ⟨1, 1, ciphertextBytes 1, votedDatabase, true⟩ ∈ world.verdicts ∧
        ¬ (⟨1, 1, ciphertextBytes 1, votedDatabase, true⟩ : Verdict).Right
          KeyPair.reference.modulus := by
  have session := smallSessionOver SmallElection.reference.database
    SmallElection.reference.voterOfKey?_voterKey
  obtain ⟨command, hdata, hsend, response, hresponse, hprocess⟩ := session.exchange 1 0
  have hrequest := @AuditStep.process SmallElection.referenceLib smallConfig
    SmallElection.reference.config ⟨SmallElection.reference.database, [], none, []⟩ 5
    (encode command)
  simp only [hprocess 5 _ ⟨rfl, rfl, rfl⟩, Option.toList_some, List.map_cons, List.map_nil,
    List.nil_append] at hrequest
  have hvote := @AuditStep.process SmallElection.referenceLib smallConfig
    SmallElection.reference.config
    ⟨SmallElection.reference.database,
      [⟨encode command, SmallElection.reference.database, response⟩], none, []⟩ 5
    (encode (SmallElection.referenceVote CommandType.castBallot.value []))
  simp only [processCommand_vote] at hvote
  have hsigned := (Reaches.single hrequest).trans (.single hvote)
  have hreplay := hsigned.trans (@replayed_empty_page _ _ _ _ KeyPair.reference.n_lt rfl _ rfl
    ⟨encode command, SmallElection.reference.database, response⟩
    (List.mem_append_left _ (List.mem_singleton.mpr rfl))
    (receivePage_before_vote hresponse) 1 1)
  exact ⟨_, hreplay, rfl, List.mem_cons_self, empty_not_right⟩

end VotingSystem.Client
