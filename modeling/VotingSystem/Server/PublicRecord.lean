import VotingSystem.Server.Pages

namespace VotingSystem.Server

open VotingSystem.Data VotingSystem.Crypto VotingSystem.Protos VotingSystem.Storage

/-! The stored ballots as evidence: what a row says of the command behind it, and
how the receipt of a cast compares with the published ballot. -/

structure KeepsBallots (db db' : Database) : Prop where
  ballots : ∀ ballot ∈ db.castEncryptedBallots.rows, ballot ∈ db'.castEncryptedBallots.rows
  entries : ∀ ballot ∈ db.castEncryptedBallots.rows,
    entriesOf db' ballot.id = entriesOf db ballot.id

namespace KeepsBallots

theorem refl (db : Database) : KeepsBallots db db := ⟨fun _ h => h, fun _ _ => rfl⟩

theorem trans {first second third : Database} (h : KeepsBallots first second)
    (h' : KeepsBallots second third) : KeepsBallots first third where
  ballots := fun ballot hballot => h'.ballots ballot (h.ballots ballot hballot)
  entries := fun ballot hballot =>
    (h'.entries ballot (h.ballots ballot hballot)).trans (h.entries ballot hballot)

theorem insertBallot (db : Database) (pending : PendingBallot) :
    KeepsBallots db (insertBallot db pending) where
  ballots := fun _ hballot => List.mem_append_left _ hballot
  entries := fun _ hballot => entriesOf_insertBallot_old hballot

theorem processCommand (lib : Libraries) (config : Config) (currTime : Int) (db : Database)
    (bytes : Bytes) : KeepsBallots db (processCommand lib config currTime db bytes).2 := by
  rcases processCommand_cases lib config currTime db bytes with
    hsame | ⟨command, pending, _, hresult⟩
  · rw [hsame]
    exact refl db
  · rw [hresult]
    exact insertBallot db pending

theorem run {lib : Libraries} {config : Config} {start db : Database}
    (hrun : Reaches (CommandStep lib config) start db) : KeepsBallots start db := by
  apply hrun.relates refl
  intro source middle command target hsource hstep
  cases hstep with
  | process currTime bytes =>
      exact hsource.trans (processCommand lib config currTime middle bytes)

end KeepsBallots

/-! The order of the entries. -/

/-- The entries of a new ballot are stored in the order of their candidates. -/
theorem orderBy_newEntries {config : Config} {db : Database} {pending : PendingBallot}
    (haccepted : Accepted config db pending) :
    orderBy CastEncryptedBallotEntryRow.candidateId (newEntries db pending) =
      newEntries db pending := by
  apply orderBy_eq_of_perm _ (.refl _)
  have hsorted := candidateIds_sorted db pending.ballot.electionId.toInt
  rw [← haccepted.candidates, ← newEntries_candidateId db pending, List.pairwise_map] at hsorted
  exact hsorted

theorem ballotEntryRows_insertBallot {config : Config} {db : Database}
    {pending : PendingBallot} (hsound : SoundStore config db)
    (haccepted : Accepted config db pending) :
    ballotEntryRows (insertBallot db pending) db.castEncryptedBallots.nextval =
      newEntries db pending := by
  have hentries := @entriesOf_insertBallot_new config db pending hsound
  rw [entriesOf] at hentries
  rw [ballotEntryRows, hentries, orderBy_newEntries haccepted]

theorem KeepsBallots.ballotEntryRows_eq {db db' : Database} (hkeeps : KeepsBallots db db')
    {ballot : CastEncryptedBallotRow} (hballot : ballot ∈ db.castEncryptedBallots.rows) :
    ballotEntryRows db' ballot.id = ballotEntryRows db ballot.id := by
  have hentries := hkeeps.entries ballot hballot
  rw [entriesOf, entriesOf] at hentries
  rw [ballotEntryRows, hentries, ballotEntryRows]

/-! Auditing a row. -/

def entryContents (entry : CastEncryptedBallotEntryRow) : Int × Bytes :=
  (entry.candidateId, entry.encryptedValue)

def sentContents (entry : EncryptedBallotEntry) : Int × Bytes :=
  (entry.candidateId.toInt, entry.encryptedValue)

/-- The data of the command decodes to what the row and its entries hold, and the
signature verifies under the voter's key. -/
structure Auditable (lib : Libraries) (db : Database) (row : CastEncryptedBallotRow) :
    Prop where
  decodes : ∃ ballot, EncryptedBallot.decode row.castCommandData = some ballot ∧
    ballot.electionId.toInt = row.electionId ∧
      ballot.encryptedBallotEntries.map sentContents =
        (ballotEntryRows db row.id).map entryContents
  verifies : ∃ voter ∈ db.voters.rows, voter.id = row.voterId ∧
    ∃ type : CommandType,
      rsaVerify lib.wolf (typeAndData type.value row.castCommandData) row.voterSignature
        voter.smartcardPublicKey = true

theorem newEntries_contents (db : Database) (pending : PendingBallot) :
    (newEntries db pending).map entryContents =
      pending.ballot.encryptedBallotEntries.map sentContents :=
  map_serialRows (castEncryptedBallotEntryRow _) entryContents sentContents
    (fun _ _ => rfl) _ _

theorem exists_commandType {type : UInt32} (hhandler : handlerOf type = .castBallot) :
    ∃ commandType : CommandType, commandType.value = type := by
  rcases handlerOf_eq_castBallot_iff.mp hhandler with rfl | rfl | rfl
  · exact ⟨.getPlaintextBallot, rfl⟩
  · exact ⟨.getEncryptedBallot, rfl⟩
  · exact ⟨.castBallot, rfl⟩

section Audit

variable {lib : Libraries} {config : Config}

theorem Auditable.of_keeps {db db' : Database} {row : CastEncryptedBallotRow}
    (haudit : Auditable lib db row) (hrow : row ∈ db.castEncryptedBallots.rows)
    (hkeeps : KeepsBallots db db') (hsetup : db.SameSetup db') :
    Auditable lib db' row where
  decodes := by
    rw [hkeeps.ballotEntryRows_eq hrow]
    exact haudit.decodes
  verifies := by
    rw [hsetup.voters]
    exact haudit.verifies

theorem Stores.auditable {currTime : Int} {db : Database} {bytes : Bytes}
    {command : Command} {pending : PendingBallot} (hsound : SoundStore config db)
    (hstores : Stores lib config currTime db bytes command pending) :
    Auditable lib (insertBallot db pending)
      (castEncryptedBallotRow pending db.castEncryptedBallots.nextval) where
  decodes := by
    refine ⟨pending.ballot, hstores.accepted.decoded, rfl, ?_⟩
    have hrows := @ballotEntryRows_insertBallot config db pending hsound hstores.accepted
    rw [castEncryptedBallotRow, hrows, newEntries_contents]
  verifies := by
    obtain ⟨_, hlookup, hverify⟩ := authenticate_eq_ok.mp hstores.authenticated
    obtain ⟨voter, hvoter, hid, hkey⟩ := voterOfKey?_eq_some hlookup
    obtain ⟨type, htype⟩ := exists_commandType hstores.dispatched
    refine ⟨voter, hvoter, hid, type, ?_⟩
    rw [htype, hkey]
    simp only [castEncryptedBallotRow, hstores.commandData, hstores.commandSignature]
    exact hverify

structure AuditableStore (lib : Libraries) (config : Config) (db : Database) : Prop where
  sound : SoundStore config db
  rows : ∀ row ∈ db.castEncryptedBallots.rows, Auditable lib db row

theorem AuditableStore.processCommand {db : Database}
    (hstore : AuditableStore lib config db) (currTime : Int) (bytes : Bytes) :
    AuditableStore lib config (processCommand lib config currTime db bytes).2 := by
  refine ⟨hstore.sound.processCommand currTime bytes, ?_⟩
  rcases processCommand_cases lib config currTime db bytes with
    hsame | ⟨command, pending, hstores, hresult⟩
  · rw [hsame]
    exact hstore.rows
  · rw [hresult]
    intro row hrow
    rw [insertBallot_ballots, List.mem_append, List.mem_singleton] at hrow
    rcases hrow with hold | rfl
    · exact (hstore.rows row hold).of_keeps hold (.insertBallot db pending)
        (insertBallot_sameSetup db pending)
    · exact hstores.auditable hstore.sound

theorem AuditableStore.run {start db : Database} (hstore : AuditableStore lib config start)
    (hrun : Reaches (CommandStep lib config) start db) : AuditableStore lib config db := by
  apply hrun.invariant hstore
  intro source command target hsource hstep
  cases hstep with
  | process currTime bytes => exact hsource.processCommand currTime bytes

/-- After any commands every stored ballot can be audited, and later commands
leave it as it is. -/
theorem stored_ballots_auditable {start db : Database}
    (hballots : start.castEncryptedBallots.rows = [])
    (hentries : start.castEncryptedBallotEntries.rows = [])
    (hrun : Reaches (CommandStep lib config) start db) :
    ∀ row ∈ db.castEncryptedBallots.rows, Auditable lib db row ∧
      ∀ later, Reaches (CommandStep lib config) db later →
        row ∈ later.castEncryptedBallots.rows ∧
          entriesOf later row.id = entriesOf db row.id := by
  have hinitial : AuditableStore lib config start :=
    ⟨.of_empty hballots hentries, by simp [hballots]⟩
  intro row hrow
  refine ⟨(hinitial.run hrun).rows row hrow, fun later hlater => ?_⟩
  have hkeeps := KeepsBallots.run hlater
  exact ⟨hkeeps.ballots row hrow, hkeeps.entries row hrow⟩

theorem stored_ballots_auditable_voted :
    Auditable SmallElection.referenceLib votedDatabase
        (castEncryptedBallotRow (SmallElection.referencePending []) 1) ∧
      ∀ later,
        Reaches (CommandStep SmallElection.referenceLib SmallElection.reference.config)
            votedDatabase later →
          castEncryptedBallotRow (SmallElection.referencePending []) 1 ∈
              later.castEncryptedBallots.rows ∧
            entriesOf later 1 = entriesOf votedDatabase 1 :=
  stored_ballots_auditable SmallElection.reference.database_ballots
    SmallElection.reference.database_entries votedDatabase_reached
    (castEncryptedBallotRow (SmallElection.referencePending []) 1)
    (List.mem_singleton.mpr rfl)

end Audit

/-! The receipt of a cast. -/

theorem map_ballotEntry_serialRows (ballotId next : Int)
    (entries : List EncryptedBallotEntry) :
    (serialRows (castEncryptedBallotEntryRow ballotId) next entries).map ballotEntry =
      numberEntries next entries := by
  induction entries generalizing next with
  | nil => rfl
  | cons entry entries ih =>
      simp only [serialRows, List.map_cons, ih, numberEntries, List.cons.injEq, and_true]
      simp only [ballotEntry, castEncryptedBallotEntryRow, Int32.ofInt_toInt]

/-- Rebuilt from its tables, a ballot is its receipt again. -/
theorem castEncryptedBallotMessage_eq_castReceipt {config : Config} {db later : Database}
    {pending : PendingBallot} (hsound : SoundStore config db)
    (haccepted : Accepted config db pending)
    (hkeeps : KeepsBallots (insertBallot db pending) later) :
    castEncryptedBallotMessage later pending.ballot.electionId
        (castEncryptedBallotRow pending db.castEncryptedBallots.nextval) =
      castReceipt db pending := by
  have hrow : castEncryptedBallotRow pending db.castEncryptedBallots.nextval ∈
      (insertBallot db pending).castEncryptedBallots.rows := by
    simp [insertBallot_ballots]
  have hentries : ballotEntryRows later db.castEncryptedBallots.nextval =
      newEntries db pending :=
    (hkeeps.ballotEntryRows_eq hrow).trans (ballotEntryRows_insertBallot hsound haccepted)
  simp only [castEncryptedBallotMessage, castEncryptedBallotRow, castReceipt, hentries,
    newEntries, map_ballotEntry_serialRows]

/-- Of all pages of its election, one element has the id of a stored row. -/
theorem filter_pages_id {db : Database} (hcolumns : db.IntColumns) {electionId : Int32}
    {row : CastEncryptedBallotRow} (hrow : row ∈ db.castEncryptedBallots.rows)
    (helection : row.electionId = electionId.toInt) :
    ((orderBy CastEncryptedBallotRow.id (electionBallots db electionId.toInt)).map
        (castEncryptedBallotMessage db electionId)).filter
          (fun ceb => ceb.id = Int32.ofInt row.id) =
      [castEncryptedBallotMessage db electionId row] := by
  have hsingle := db.castEncryptedBallots.filter_key_eq_singleton hrow
  have hselected : (electionBallots db electionId.toInt).filter
      (fun other => other.id = row.id) = [row] := by
    rw [electionBallots, List.filter_comm]
    simp only [Keyed.key] at hsingle
    rw [hsingle]
    simp [helection]
  have hordered : (orderBy CastEncryptedBallotRow.id (electionBallots db electionId.toInt)).filter
      (fun other => other.id = row.id) = [row] := by
    rw [← List.perm_singleton, ← hselected]
    exact (orderBy_perm _ _).filter _
  rw [List.filter_map, ← List.map_singleton, ← hordered]
  congr 1
  apply List.filter_congr
  intro other hother
  have hmem : other ∈ db.castEncryptedBallots.rows :=
    List.mem_of_mem_filter ((mem_orderBy _).mp hother)
  have hinj : Int32.ofInt other.id = Int32.ofInt row.id ↔ other.id = row.id :=
    ⟨ofInt_inj (hcolumns.castEncryptedBallots other hmem).1
      (hcolumns.castEncryptedBallots row hrow).1, fun heq => by rw [heq]⟩
  simp [castEncryptedBallotMessage, hinj]

theorem castResponse_decode {lib : Libraries} {config : Config} {db : Database}
    {pending : PendingBallot} {response : Bytes}
    (hresponse : castResponse lib config db pending = some response) :
    ∃ signature, Response.decode response =
      some ⟨ResponseType.castEncryptedBallot.value, encode (castReceipt db pending),
        config.pubKey, signature⟩ := by
  obtain ⟨cebEncoded, hencode, hfinish⟩ := Option.bind_eq_some_iff.mp hresponse
  obtain ⟨_, rfl⟩ := encodeMessage_eq_some.mp hencode
  exact finishResponse_decode hfinish

theorem exists_castResponse {lib : Libraries} {config : Config}
    (serverKey : RsaKeyPair lib.wolf) (hkey : config.privKey = serverKey.privKey)
    (hencodes : ∀ bytes, lib.encodeFails bytes = false) (db : Database)
    (pending : PendingBallot) : ∃ response, castResponse lib config db pending = some response := by
  have hencode : ∀ {α : Type} [Message α] (message : α),
      encodeMessage lib.encodeFails message = some (encode message) :=
    fun message => encodeMessage_eq_some.mpr ⟨hencodes _, rfl⟩
  obtain ⟨signature, hsign, _⟩ := serverKey.rsaSign_payload
    (typeAndData ResponseType.castEncryptedBallot.value (encode (castReceipt db pending)))
  refine ⟨encode (⟨ResponseType.castEncryptedBallot.value, encode (castReceipt db pending),
    config.pubKey, signature⟩ : Response), ?_⟩
  simp only [castResponse, finishResponse, hencode, hkey, hsign, Option.bind_eq_bind,
    Option.bind_some]

/-- The receipt of a cast is, in every later state, the one element of the
published pages that has its id. -/
theorem receipt_matches_record {lib : Libraries} {config : Config}
    {start before later : Database} (hballots : start.castEncryptedBallots.rows = [])
    (hentries : start.castEncryptedBallotEntries.rows = [])
    (hnextval : 0 < start.castEncryptedBallots.nextval)
    (hbefore : Reaches (CommandStep lib config) start before)
    {currTime : Int} {bytes response : Bytes} {command : Command} {pending : PendingBallot}
    (hstores : Stores lib config currTime before bytes command pending)
    (hresponse : (processCommand lib config currTime before bytes).1 = some response)
    (hlater : Reaches (CommandStep lib config)
      (processCommand lib config currTime before bytes).2 later)
    (hcolumns : later.IntColumns) {fuel : Nat}
    (hfuel : later.castEncryptedBallots.rows.length < fuel) :
    ∃ receipt signature cebs,
      Response.decode response =
          some ⟨ResponseType.castEncryptedBallot.value, encode receipt, config.pubKey,
            signature⟩ ∧
        collectPages (fun ceb => ceb.id.toInt)
            (fetchEncryptedBallots later pending.ballot.electionId) fuel 0 = some cebs ∧
          cebs.filter (fun ceb => ceb.id = receipt.id) = [receipt] := by
  have hsound : SoundStore config before := (SoundStore.of_empty hballots hentries).run hbefore
  have hpositive : PositiveIds start := ⟨hnextval, by simp [hballots]⟩
  have hafter := hpositive.commands
    ((hbefore.trans (.single (.process before currTime bytes))).trans hlater)
  rw [hstores.processCommand_eq] at hresponse hlater
  have hkeeps := KeepsBallots.run hlater
  obtain ⟨signature, hdecode⟩ := castResponse_decode hresponse
  have hmessage := castEncryptedBallotMessage_eq_castReceipt hsound hstores.accepted hkeeps
  have hrow : castEncryptedBallotRow pending before.castEncryptedBallots.nextval ∈
      later.castEncryptedBallots.rows :=
    hkeeps.ballots _ (by simp [insertBallot_ballots])
  refine ⟨_, signature, _, hdecode,
    collectPages_encryptedBallots hcolumns hafter.ballots _
      ((List.length_filter_le _ _).trans_lt hfuel), ?_⟩
  rw [← hmessage]
  exact filter_pages_id hcolumns hrow rfl

theorem receipt_matches_record_voted :
    ∃ response,
      (processCommand SmallElection.referenceLib SmallElection.reference.config 5
          SmallElection.reference.database
          (encode (SmallElection.referenceVote CommandType.castBallot.value []))).1 =
        some response ∧
      ∃ receipt signature cebs,
        Response.decode response =
            some ⟨ResponseType.castEncryptedBallot.value, encode receipt,
              SmallElection.reference.config.pubKey, signature⟩ ∧
          collectPages (fun ceb => ceb.id.toInt)
              (fetchEncryptedBallots votedDatabase
                (SmallElection.referencePending []).ballot.electionId) 2 0 = some cebs ∧
            cebs.filter (fun ceb => ceb.id = receipt.id) = [receipt] := by
  have hstores := SmallElection.reference_stores_vote
  obtain ⟨response, hresponse⟩ := @exists_castResponse SmallElection.referenceLib
    SmallElection.reference.config (Transparent.keyPair 0) rfl (fun _ => rfl)
    SmallElection.reference.database (SmallElection.referencePending [])
  rw [hstores.processCommand_eq]
  have hlater : Reaches
      (CommandStep SmallElection.referenceLib SmallElection.reference.config)
      (processCommand SmallElection.referenceLib SmallElection.reference.config 5
        SmallElection.reference.database
        (encode (SmallElection.referenceVote CommandType.castBallot.value []))).2
      votedDatabase := by
    rw [processCommand_vote]
    exact .refl
  refine ⟨response, hresponse, ?_⟩
  exact receipt_matches_record SmallElection.reference.database_ballots
    SmallElection.reference.database_entries (by decide) .refl hstores
    (by rw [hstores.processCommand_eq]; exact hresponse) hlater votedDatabase_intColumns
    (by decide)

end VotingSystem.Server
