import VotingSystem.Client.Elections
import VotingSystem.Client.TallyDecryption
import VotingSystem.Server.Refinement

namespace VotingSystem.Client

open VotingSystem.Data VotingSystem.Crypto VotingSystem.Number VotingSystem.Protos
open VotingSystem.Storage
open VotingSystem.Server hiding getElections

/-! What `getElections` prints, with the verdicts of the client on every tally entry. -/

structure EntryReport where
  id : Int32
  decryptedVal : Int32
  encryptedValueCorrect : Bool
  decryptedValueCorrect : Bool

/-- `tally` is `none` for the line that says that the tally is not yet finalized. -/
structure ElectionReport where
  id : Int32
  startTimeUtc : Int32
  endTimeUtc : Int32
  enabled : Bool
  allowWriteIn : Bool
  tally : Option (Int32 × List EntryReport)
  authorizedVoterGroups : List Int32
  candidates : List Candidate

section Output

variable (lib : Libraries) (config : Config) (server : Bytes → Option Bytes) (fuel : Nat)
variable (drawn : TallyEntry → Nat)

def reportEntry (electionId : Int32) (entry : TallyEntry) : EntryReport where
  id := entry.id
  decryptedVal := entry.decryptedValue
  encryptedValueCorrect :=
    verifyTallyEncryption lib config server electionId entry.candidateId entry.encryptedValue
      fuel
  decryptedValueCorrect :=
    verifyTallyDecryption config entry.decryptedValue entry.encryptedValue entry.encryptionR
      (drawn entry)

def reportElection (election : Election) : ElectionReport where
  id := election.id
  startTimeUtc := election.startTimeUtc
  endTimeUtc := election.endTimeUtc
  enabled := election.enabled
  allowWriteIn := election.allowWriteIn
  tally :=
    if election.tally.finalized then
      some (election.tally.id,
        election.tally.tallyEntries.map (reportEntry lib config server fuel drawn election.id))
    else
      none
  authorizedVoterGroups := election.authorizedVoterGroupIds
  candidates := election.candidates

def reportElections : Option (List ElectionReport) :=
  (getElections lib config server).map
    (List.map (reportElection lib config server fuel drawn))

end Output

section Expected

variable (config : Server.Config) (db : Database)

/-- The lines for an entry that counts the stored ballots. The verdict on the decrypted value
is that of a client that expects a one. -/
def votesReport (electionId : Int32) (entry : TallyEntry) : EntryReport where
  id := entry.id
  decryptedVal := Int32.ofInt (votesFor config db electionId.toInt entry.candidateId.toInt)
  encryptedValueCorrect := true
  decryptedValueCorrect := votesFor config db electionId.toInt entry.candidateId.toInt = 1

def electionVotesReport (election : Election) : ElectionReport where
  id := election.id
  startTimeUtc := election.startTimeUtc
  endTimeUtc := election.endTimeUtc
  enabled := election.enabled
  allowWriteIn := election.allowWriteIn
  tally :=
    if election.tally.finalized then
      some (election.tally.id,
        election.tally.tallyEntries.map (votesReport config db election.id))
    else
      none
  authorizedVoterGroups := election.authorizedVoterGroupIds
  candidates := election.candidates

end Expected

/-! Entries of the message and entries of the tables. -/

section Entries

variable {config : Server.Config} {db : Database}

/-- An entry of a reported tally is what `generateTally` would compute again. -/
theorem exists_of_mem_tallyEntries (hcurrent : CurrentTallies config db) {row : ElectionRow}
    {message : Election} (hmessage : electionMessage db row = some message)
    {entry : TallyEntry} (hentry : entry ∈ message.tally.tallyEntries) :
    ∃ tally ∈ db.tallies.rows, tally.electionId = row.id ∧
      ∃ candidate ∈ db.candidates.rows, candidate.electionId = row.id ∧ ∃ id,
        entry = tallyEntry (tallyEntryRow tally.id
          (candidateTally config
            (candidate.id, candidateSelection db row.id candidate.id)) id) := by
  obtain ⟨_, htally, _, _⟩ := electionMessage_fields hmessage
  have hrow : ∃ stored ∈ tallyRows db row.id, tallyEntry stored = entry := by
    unfold electionTally at htally
    split at htally
    · rw [← Option.some.inj htally] at hentry
      cases hentry
    · rename_i first rest hrows
      split at htally
      · rw [← Option.some.inj htally, ← hrows] at hentry
        exact List.mem_map.mp hentry
      · cases htally
  obtain ⟨stored, hstored, rfl⟩ := hrow
  obtain ⟨hmem, tally, htally, hid, helection⟩ := mem_tallyRows.mp hstored
  obtain ⟨other, hother, candidate, hcandidate, hcandidateElection, heq⟩ :=
    hcurrent stored hmem
  have hotherId : other.id = tally.id := by
    rw [hid, heq]
    rfl
  obtain rfl : other = tally := db.tallies.eq_of_key_eq hother htally hotherId
  rw [helection] at hcandidateElection heq
  exact ⟨other, htally, helection, candidate, hcandidate, hcandidateElection, stored.id,
    congrArg tallyEntry heq⟩

end Entries

section Verdicts

variable {lib : Libraries} {client : Config} {config : Server.Config} {db : Database}
variable {server : Bytes → Option Bytes}

/-- The audit of a candidate accepts the product of its stored ciphertexts. -/
theorem verifyTallyEncryption_selection (hsound : SoundStore config db)
    (hcolumns : db.IntColumns) (hpositive : PositiveIds db)
    (session : Session lib client config db server) {candidate : CandidateRow}
    (hcandidate : candidate ∈ db.candidates.rows) {fuel : Nat}
    (hfuel : db.castEncryptedBallots.rows.length < fuel) :
    verifyTallyEncryption lib client server (Int32.ofInt candidate.electionId)
      (Int32.ofInt candidate.id)
      (candidateTally config (candidate.id,
        candidateSelection db candidate.electionId candidate.id)).encryptedValue fuel =
          true := by
  obtain ⟨hcandidateId, helectionId⟩ := hcolumns.candidates candidate hcandidate
  obtain ⟨ciphertexts, hcollect, hperm⟩ := collectCiphertexts_perm hsound hcolumns
    hpositive.ballots hcandidate (toInt_ofInt helectionId) (toInt_ofInt hcandidateId)
    (session.fetchBallots_eq (Int32.ofInt candidate.electionId)) hfuel
  have hlength : ∀ ctexts : List Bytes,
      (paillierSum ctexts config.paillierPubKey).length = pCiphertextMaxLen := by
    intro ctexts
    rw [session.config_paillier]
    exact paillierSum_length session.paillierKey.n_lt ctexts
  have htake := fun ctexts => List.take_of_length_le (hlength ctexts).le
  simp only [verifyTallyEncryption, hcollect, session.paillier_known, htake, candidateTally,
    hlength, paillierSum_perm hperm, decide_true, Bool.and_self]

theorem PositiveIds.of_run {start : Database} (hballots : start.castEncryptedBallots.rows = [])
    (hnextval : 0 < start.castEncryptedBallots.nextval) {now : Int} {world : TallyWorld}
    {condition : TallyWorld → TallyEvent → Prop}
    (hrun : Reaches (Restricted (TallyStep config) condition) ⟨start, now, [], []⟩ world) :
    PositiveIds world.db :=
  .run ⟨hnextval, by simp [hballots]⟩ hrun.of_restricted

/-- What the server reports of a tally entry, and where it comes from. -/
theorem exists_of_reported (hcurrent : CurrentTallies config db) {currTime : Int}
    (session : Session lib client config db (honestServer lib config currTime db))
    {elections : List Election}
    (hget : getElections lib client (honestServer lib config currTime db) = some elections)
    {election : Election} (helection : election ∈ elections) {entry : TallyEntry}
    (hentry : entry ∈ election.tally.tallyEntries) :
    ∃ tally ∈ db.tallies.rows, ∃ candidate ∈ db.candidates.rows,
      candidate.electionId = tally.electionId ∧
        election.id = Int32.ofInt candidate.electionId ∧ ∃ id,
          entry = tallyEntry (tallyEntryRow tally.id
            (candidateTally config (candidate.id,
              candidateSelection db candidate.electionId candidate.id)) id) := by
  obtain ⟨messages, hmessages, rfl⟩ := getElections_honest session hget
  obtain ⟨message, hmessage, rfl⟩ := List.mem_map.mp helection
  obtain ⟨row, _, hbuilt⟩ := exists_of_mem_mapM hmessages hmessage
  obtain ⟨tally, htally, hid, candidate, hcandidate, hcandidateElection, rowId, heq⟩ :=
    exists_of_mem_tallyEntries hcurrent hbuilt hentry
  refine ⟨tally, htally, candidate, hcandidate, hcandidateElection.trans hid.symm, ?_, rowId,
    ?_⟩
  · rw [hcandidateElection]
    exact (electionMessage_fields hbuilt).1
  · rw [hcandidateElection]
    exact heq

end Verdicts

/-- When ticks wait for the end of the elections and of their casts, the tallies stay what
the stored ballots give, and every tally entry that an honest server ever reports passes the
audit of an honest client. -/
theorem reported_tallies_pass_audit {lib : Libraries} {client : Config}
    {config : Server.Config} {start : Database}
    (hballots : start.castEncryptedBallots.rows = [])
    (hentries : start.castEncryptedBallotEntries.rows = [])
    (htallies : start.tallies.rows = []) (htallyEntries : start.tallyEntries.rows = [])
    (hnextval : 0 < start.castEncryptedBallots.nextval) {now : Int} {world : TallyWorld}
    (hrun : Reaches (Restricted (TallyStep config) SafeTick) ⟨start, now, [], []⟩ world) :
    CurrentTallies config world.db ∧
      ∀ {currTime : Int} (_ : Session lib client config world.db
          (honestServer lib config currTime world.db)) {elections : List Election}
        {fuel : Nat}, world.db.IntColumns →
        world.db.castEncryptedBallots.rows.length < fuel →
        getElections lib client (honestServer lib config currTime world.db) =
          some elections →
        ∀ election ∈ elections, ∀ entry ∈ election.tally.tallyEntries,
          verifyTallyEncryption lib client (honestServer lib config currTime world.db)
            election.id entry.candidateId entry.encryptedValue fuel = true := by
  have hworld : RecordedWorld config world :=
    (RecordedWorld.of_empty hballots hentries htallies htallyEntries now).run hrun
  have hpositive := PositiveIds.of_run hballots hnextval hrun
  refine ⟨hworld.current, ?_⟩
  intro currTime session elections fuel hcolumns hfuel hget election helection entry hentry
  obtain ⟨tally, _, candidate, hcandidate, _, hid, rowId, rfl⟩ :=
    exists_of_reported hworld.current session hget helection hentry
  rw [hid]
  exact verifyTallyEncryption_selection hworld.sound hcolumns hpositive session hcandidate
    hfuel

/-! Honest ballots. -/

section Honest

variable {key : KeyPair} {client : Config} {config : Server.Config} {start : Database}
variable {world : TallyWorld}

theorem ciphertext_coprime {blinded : BlindedVote}
    (hblind : blinded.blinding.factor.Coprime key.modulus.n) :
    (mpzImport (blinded.ciphertext key)).Coprime key.modulus.n := by
  rw [BlindedVote.ciphertext, paillierEnc_eq key.n_lt,
    mpzImport_ciphertextBytes (lt_ciphertext_of_lt_square key.n_lt (key.modulus.encrypt_lt _ _))]
  exact key.modulus.encrypt_coprime _ hblind

/-- The numbers of a tally entry in a run of faithful events. -/
theorem decryptedValue_eq_votesFor (hconfig : config.HoldsKey key)
    (hworld : FaithfulWorld key config start world) {tally : TallyRow}
    (htally : tally ∈ world.db.tallies.rows) {candidate : CandidateRow}
    (hcandidate : candidate ∈ world.db.candidates.rows)
    (helection : candidate.electionId = tally.electionId) :
    (candidateTally config (candidate.id, candidateSelection world.db candidate.electionId
        candidate.id)).decryptedValue.toNat =
      votesFor config world.db candidate.electionId candidate.id := by
  have hfew := hworld.few tally htally
  rw [← helection] at hfew
  rw [decryptedValue_candidateTally hconfig hworld.sound hworld.honest hcandidate
    (hfew.trans (by decide)), Nat.mod_eq_of_lt ((count_ballotBox_le _).trans_lt hfew),
    count_ballotBox_eq_votesFor]

theorem verifyTallyDecryption_faithful (hconfig : config.HoldsKey key)
    (hpub : client.serverPaillierPubKey = pubHex key.modulus)
    (hworld : FaithfulWorld key config start world) {tally : TallyRow}
    (htally : tally ∈ world.db.tallies.rows) {candidate : CandidateRow}
    (hcandidate : candidate ∈ world.db.candidates.rows)
    (helection : candidate.electionId = tally.electionId) (decrypted : Int32) (drawn : Nat) :
    verifyTallyDecryption client decrypted
        (candidateTally config (candidate.id, candidateSelection world.db candidate.electionId
          candidate.id)).encryptedValue
        (candidateTally config (candidate.id, candidateSelection world.db candidate.electionId
          candidate.id)).encryptionR drawn =
      decide (votesFor config world.db candidate.electionId candidate.id = 1) := by
  have hvotesFor := decryptedValue_eq_votesFor hconfig hworld htally hcandidate helection
  have hfew := hworld.few tally htally
  rw [← helection] at hfew
  obtain ⟨votes, hvotes, hcoprime, hbinary, hcount, hlength⟩ :=
    hworld.sound.exists_selectedVotes hconfig hworld.honest hcandidate
  have hunits : ∀ ctext ∈ candidateSelection world.db candidate.electionId candidate.id,
      (mpzImport ctext).Coprime key.modulus.n := by
    intro ctext hctext
    rw [← hvotes] at hctext
    obtain ⟨blinded, hblinded, rfl⟩ := List.mem_map.mp hctext
    exact ciphertext_coprime (hcoprime.coprime blinded hblinded)
  have hplain : decryptedPlaintext
      (candidateTally config (candidate.id, candidateSelection world.db candidate.electionId
        candidate.id)).encryptedValue
      (privHexP key.modulus) (privHexQ key.modulus) (pubHex key.modulus) < 2 ^ 64 := by
    have hle := hbinary.count_le_length
    simp only [candidateTally, hconfig.pub]
    rw [← hvotes, BlindedVote.decryptedPlaintext_sum hbinary hcoprime (by omega)]
    omega
  rw [Bool.eq_iff_iff, decide_eq_true_eq,
    verifyTallyDecryption_candidateTally hpub hconfig hunits hplain, ← UInt64.toNat_inj,
    hvotesFor]
  rfl

end Honest

theorem intColumns_of_generateTallies_voted {db : Database}
    (hgenerate : generateTallies SmallElection.reference.config votedDatabase = some db) :
    db.IntColumns := by
  have htallied := generateTallies_tallied hgenerate
  have huntallied : untallied votedDatabase = [1] := rfl
  rw [generateTallies, huntallied, List.foldlM_cons] at hgenerate
  obtain ⟨middle, hfirst, hrest⟩ := Option.bind_eq_some_iff.mp hgenerate
  cases hrest
  obtain ⟨ctexts, hgroup, hsmall, rfl⟩ := generateTally_eq_some.mp hfirst
  refine
    { votedDatabase_intColumns with
      tallies := ?_
      tallyEntries := ?_ }
  · intro row hrow
    obtain rfl : row = ⟨1, 1⟩ := List.mem_singleton.mp hrow
    decide
  · intro row hrow
    rw [insertTally_entries] at hrow
    rcases groupCiphertexts_tallySelection hgroup with
      ⟨_, rfl⟩ | ⟨candidate, hcandidate, _, _, rfl⟩
    · cases hrow
    · have hvalue := hsmall _ (List.mem_singleton.mpr rfl)
      obtain rfl : candidate = SmallElection.candidate := List.mem_singleton.mp hcandidate
      obtain rfl := List.mem_singleton.mp hrow
      refine ⟨by decide, by decide, by decide, ?_⟩
      simp only [tallyEntryRow, IntColumn]
      omega

theorem exists_faithful_report :
    ∃ db, generateTallies SmallElection.reference.config votedDatabase = some db ∧
      Reaches (Restricted (TallyStep SmallElection.reference.config)
          (FaithfulEvent SmallElection.reference.key))
        ⟨SmallElection.reference.database, 5, [], []⟩
        ⟨db, 11, [], [(1, readBallots votedDatabase 1)]⟩ ∧
      db.IntColumns ∧ db.castEncryptedBallots.rows.length < 2 ∧
        voterOfKey? db smallConfig.clientPubKey = some 1 ∧ OneTallyPerElection db := by
  obtain ⟨db, hgenerate, hrun⟩ := exists_faithful_tick
  have htallied := generateTallies_tallied hgenerate
  refine ⟨db, hgenerate, hrun, intColumns_of_generateTallies_voted hgenerate, ?_, ?_, ?_⟩
  · rw [htallied.ballots]
    decide
  · rw [voterOfKey?, htallied.setup.voters]
    exact SmallElection.reference.voterOfKey?_voterKey
  · rw [OneTallyPerElection, htallied.tallies]
    exact List.nodup_singleton 1

def smallAnswers (db : Database) : Bytes → Option Bytes :=
  honestServer SmallElection.referenceLib SmallElection.reference.config 5 db

theorem reported_tallies_pass_audit_voted :
    ∃ (db : Database) (elections : List Election),
      generateTallies SmallElection.reference.config votedDatabase = some db ∧
        CurrentTallies SmallElection.reference.config db ∧
          getElections SmallElection.referenceLib smallConfig (smallAnswers db) =
              some elections ∧
            ∀ election ∈ elections, ∀ entry ∈ election.tally.tallyEntries,
              verifyTallyEncryption SmallElection.referenceLib smallConfig (smallAnswers db)
                election.id entry.candidateId entry.encryptedValue 2 = true := by
  obtain ⟨db, hgenerate, hrun, hcolumns, hfuel, hregistered, hone⟩ := exists_faithful_report
  have session := smallSessionOver db hregistered
  obtain ⟨elections, hget⟩ := exists_getElections session hone
  obtain ⟨hcurrent, hpass⟩ := @reported_tallies_pass_audit SmallElection.referenceLib
    smallConfig SmallElection.reference.config SmallElection.reference.database rfl rfl rfl rfl
    (by decide) _ _ (hrun.weaken fun _ _ hevent => FaithfulEvent.safeTick hevent)
  exact ⟨db, elections, hgenerate, hcurrent, hget, hpass session hcolumns hfuel hget⟩

end VotingSystem.Client
