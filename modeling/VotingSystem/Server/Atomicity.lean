import VotingSystem.Server.SmallElection

namespace VotingSystem.Server

open VotingSystem.Data VotingSystem.Crypto VotingSystem.Protos VotingSystem.Storage

/-! What a cast leaves behind when it fails, and where it can fail too late. -/

def responseType? (response : Option Bytes) : Option UInt32 := do
  let bytes ← response
  let parsed ← Response.decode bytes
  some parsed.type

theorem responseType?_finishResponse {lib : Libraries} {config : Config}
    {type : ResponseType} {data bytes : Bytes}
    (hresponse : finishResponse lib config type data = some bytes) :
    responseType? (some bytes) = some type.value := by
  obtain ⟨signature, hdecode⟩ := finishResponse_decode hresponse
  simp [responseType?, hdecode]

/-- The steps of a cast that can still fail once the ballot is committed. -/
def LateFailure (lib : Libraries) (config : Config) (db : Database)
    (pending : PendingBallot) : Prop :=
  let receipt := encode (castReceipt db pending)
  lib.encodeFails receipt = true ∨
    rsaSign lib.wolf (typeAndData ResponseType.castEncryptedBallot.value receipt)
        config.privKey rsaSignatureSize = none ∨
      ∃ signature,
        rsaSign lib.wolf (typeAndData ResponseType.castEncryptedBallot.value receipt)
            config.privKey rsaSignatureSize = some signature ∧
          lib.encodeFails
            (encode
              (⟨ResponseType.castEncryptedBallot.value, receipt, config.pubKey, signature⟩ :
                Response)) = true

theorem castResponse_eq_none_iff {lib : Libraries} {config : Config} {db : Database}
    {pending : PendingBallot} :
    castResponse lib config db pending = none ↔ LateFailure lib config db pending := by
  unfold castResponse LateFailure finishResponse encodeMessage
  cases hreceipt : lib.encodeFails (encode (castReceipt db pending)) with
  | true => simp [hreceipt]
  | false =>
      cases hsign : rsaSign lib.wolf
          (typeAndData ResponseType.castEncryptedBallot.value
            (encode (castReceipt db pending))) config.privKey rsaSignatureSize with
      | none => simp [hreceipt, hsign]
      | some signature => simp [hreceipt, hsign]

theorem processCommand_castBallot_cases {lib : Libraries} {config : Config} {currTime : Int}
    {db : Database} {bytes : Bytes} {command : Command}
    (hcommand : Command.decode bytes = some command)
    (htype : command.type = CommandType.castBallot.value) :
    (∃ error, processCommand lib config currTime db bytes =
        (errorResponse lib config error, db)) ∨
      ∃ pending, Stores lib config currTime db bytes command pending := by
  unfold processCommand
  cases hauth : authenticate lib db bytes with
  | error error => exact .inl ⟨error, rfl⟩
  | ok result =>
      obtain ⟨command', voterId⟩ := result
      obtain ⟨hdecode, hvoter, hverify⟩ := authenticate_eq_ok.mp hauth
      obtain rfl : command' = command := by
        rw [hcommand] at hdecode
        exact (Option.some.inj hdecode).symm
      have hhandler : handlerOf command'.type = .castBallot :=
        handlerOf_eq_castBallot_iff.mpr (.inr (.inr htype))
      simp only [dispatch, hhandler]
      rcases castBallot_cases lib config currTime db command'.data command'.signature
        voterId with ⟨error, _, hcast⟩ | ⟨pending, hchecks, _⟩
      · exact .inl ⟨error, hcast⟩
      · obtain ⟨haccepted, rfl, hcastAt, hdata, hsignature⟩ :=
          castBallotChecks_eq_ok.mp hchecks
        exact .inr ⟨pending, hauth, hhandler, haccepted, hcastAt, hdata, hsignature⟩

/-- A failed cast leaves the ballot tables alone, and a receipt stands for one
new ballot with one entry per candidate. -/
structure Atomic (db : Database) (result : Option Bytes × Database) : Prop where
  failed : result.1 = none ∨ responseType? result.1 = some ResponseType.error.value →
    result.2.castEncryptedBallots = db.castEncryptedBallots ∧
      result.2.castEncryptedBallotEntries = db.castEncryptedBallotEntries
  succeeded : responseType? result.1 = some ResponseType.castEncryptedBallot.value →
    ∃ ballot entries,
      result.2.castEncryptedBallots.rows = db.castEncryptedBallots.rows ++ [ballot] ∧
        result.2.castEncryptedBallotEntries.rows =
          db.castEncryptedBallotEntries.rows ++ entries ∧
        (∀ entry ∈ entries, entry.castEncryptedBallotId = ballot.id) ∧
        entries.map CastEncryptedBallotEntryRow.candidateId =
          candidateIds db ballot.electionId

theorem atomic_errorResponse (lib : Libraries) (config : Config) (db : Database)
    (error : String) : Atomic db (errorResponse lib config error, db) where
  failed := fun _ => ⟨rfl, rfl⟩
  succeeded := by
    intro htype
    cases hresponse : errorResponse lib config error with
    | none => simp [hresponse, responseType?] at htype
    | some bytes =>
        rw [hresponse, responseType?_finishResponse hresponse] at htype
        exact absurd htype (by decide)

theorem insertBallot_adds {config : Config} {db : Database} {pending : PendingBallot}
    (haccepted : Accepted config db pending) :
    ∃ ballot entries,
      (insertBallot db pending).castEncryptedBallots.rows =
          db.castEncryptedBallots.rows ++ [ballot] ∧
        (insertBallot db pending).castEncryptedBallotEntries.rows =
          db.castEncryptedBallotEntries.rows ++ entries ∧
        (∀ entry ∈ entries, entry.castEncryptedBallotId = ballot.id) ∧
        entries.map CastEncryptedBallotEntryRow.candidateId =
          candidateIds db ballot.electionId := by
  refine ⟨castEncryptedBallotRow pending db.castEncryptedBallots.nextval,
    newEntries db pending, insertBallot_ballots db pending, insertBallot_entries db pending,
    fun entry hentry => castEncryptedBallotId_of_mem_newEntries hentry, ?_⟩
  rw [newEntries_candidateId]
  exact haccepted.candidates

/-- A cast is atomic exactly when no ballot that passes the checks meets a
failure after its commit. -/
theorem castBallot_atomic_iff {lib : Libraries} {config : Config} {currTime : Int}
    {db : Database} {bytes : Bytes} {command : Command}
    (hcommand : Command.decode bytes = some command)
    (htype : command.type = CommandType.castBallot.value) :
    Atomic db (processCommand lib config currTime db bytes) ↔
      ¬∃ pending, Stores lib config currTime db bytes command pending ∧
        LateFailure lib config db pending := by
  constructor
  · intro hatomic hexists
    obtain ⟨pending, hstores, hlate⟩ := hexists
    rw [hstores.processCommand_eq, castResponse_eq_none_iff.mpr hlate] at hatomic
    have hsame := congrArg SerialTable.rows (hatomic.failed (.inl rfl)).1
    rw [insertBallot_ballots] at hsame
    simp at hsame
  · intro hnone
    rcases processCommand_castBallot_cases hcommand htype with
      ⟨error, hresult⟩ | ⟨pending, hstores⟩
    · rw [hresult]
      exact atomic_errorResponse lib config db error
    · have hlate : ¬LateFailure lib config db pending := fun hlate =>
        hnone ⟨pending, hstores, hlate⟩
      rw [hstores.processCommand_eq]
      rw [← castResponse_eq_none_iff] at hlate
      obtain ⟨bytes, hresponse⟩ := Option.ne_none_iff_exists'.mp hlate
      obtain ⟨data, _, hfinish⟩ := Option.bind_eq_some_iff.mp hresponse
      refine ⟨fun hfailed => ?_, fun _ => insertBallot_adds hstores.accepted⟩
      rw [hresponse, responseType?_finishResponse hfinish] at hfailed
      rcases hfailed with hfailed | hfailed
      · contradiction
      · exact absurd hfailed (by decide)

theorem castBallot_atomic_iff_vote :
    Atomic SmallElection.reference.database
        (processCommand SmallElection.referenceLib SmallElection.reference.config 5
          SmallElection.reference.database
          (encode (SmallElection.referenceVote CommandType.castBallot.value []))) ↔
      ¬∃ pending,
        Stores SmallElection.referenceLib SmallElection.reference.config 5
            SmallElection.reference.database
            (encode (SmallElection.referenceVote CommandType.castBallot.value []))
            (SmallElection.referenceVote CommandType.castBallot.value []) pending ∧
          LateFailure SmallElection.referenceLib SmallElection.reference.config
            SmallElection.reference.database pending :=
  castBallot_atomic_iff (Command.decode_encode _) rfl

/-- Under a server key of 3072 bits no receipt can be signed, and the ballot is
stored all the same. -/
theorem oversized_server_key_not_atomic :
    ¬Atomic SmallElection.reference.database
      (processCommand SmallElection.referenceLib
        (SmallElection.referenceWith [0, 12]).config 5 SmallElection.reference.database
        (encode (SmallElection.referenceVote CommandType.castBallot.value []))) := by
  have hstores := SmallElection.reference_stores
    (handlerOf_eq_castBallot_iff.mpr (.inr (.inr rfl))) [0, 12] []
  have hlate : LateFailure SmallElection.referenceLib
      (SmallElection.referenceWith [0, 12]).config SmallElection.reference.database
      (SmallElection.referencePending []) :=
    .inr (.inl (Transparent.rsaSign_3072_bits 0 _))
  intro hatomic
  rw [hstores.processCommand_eq, castResponse_eq_none_iff.mpr hlate] at hatomic
  have hsame := congrArg SerialTable.rows (hatomic.failed (.inl rfl)).1
  rw [insertBallot_ballots] at hsame
  simp at hsame

end VotingSystem.Server
