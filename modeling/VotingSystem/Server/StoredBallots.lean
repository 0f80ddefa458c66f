import VotingSystem.Data.Transition
import VotingSystem.Server.SmallElection

namespace VotingSystem.Server

open VotingSystem.Data VotingSystem.Crypto VotingSystem.Protos VotingSystem.Storage

/-! The ballots in the database after any sequence of commands. -/

inductive CommandStep (lib : Libraries) (config : Config) :
    Database → Int × Bytes → Database → Prop
  | process (db : Database) (currTime : Int) (bytes : Bytes) :
      CommandStep lib config db (currTime, bytes)
        (processCommand lib config currTime db bytes).2

def entriesOf (db : Database) (ballotId : Int) : List CastEncryptedBallotEntryRow :=
  db.castEncryptedBallotEntries.rows.filter fun entry =>
    entry.castEncryptedBallotId = ballotId

structure SoundBallot (config : Config) (db : Database) (ballot : CastEncryptedBallotRow) :
    Prop where
  in_time : ∃ election ∈ db.elections.rows, election.id = ballot.electionId ∧
    election.startTime ≤ ballot.castAt ∧ ballot.castAt ≤ election.endTime
  authorized : ∃ voter ∈ db.voters.rows, voter.id = ballot.voterId ∧
    ∃ evg ∈ db.electionsVoterGroups.rows, evg.electionId = ballot.electionId ∧
      evg.voterGroupId = voter.voterGroupId
  candidates : (entriesOf db ballot.id).map CastEncryptedBallotEntryRow.candidateId =
    candidateIds db ballot.electionId
  oneHot : OneHot ((entriesOf db ballot.id).map fun entry =>
    decryptEntry config entry.encryptedValue)

structure SoundStore (config : Config) (db : Database) : Prop where
  ballots : ∀ ballot ∈ db.castEncryptedBallots.rows, SoundBallot config db ballot
  entries : ∀ entry ∈ db.castEncryptedBallotEntries.rows,
    ∃ ballot ∈ db.castEncryptedBallots.rows, ballot.id = entry.castEncryptedBallotId

theorem SoundStore.of_empty {config : Config} {db : Database}
    (hballots : db.castEncryptedBallots.rows = [])
    (hentries : db.castEncryptedBallotEntries.rows = []) : SoundStore config db where
  ballots := by simp [hballots]
  entries := by simp [hentries]

section Insert

variable {config : Config} {db : Database} {pending : PendingBallot}

theorem SoundStore.entry_lt_nextval (hsound : SoundStore config db)
    {entry : CastEncryptedBallotEntryRow}
    (hentry : entry ∈ db.castEncryptedBallotEntries.rows) :
    entry.castEncryptedBallotId < db.castEncryptedBallots.nextval := by
  obtain ⟨ballot, hballot, hid⟩ := hsound.entries entry hentry
  rw [← hid]
  exact db.castEncryptedBallots.keys_lt ballot hballot

theorem entriesOf_insertBallot_old {ballot : CastEncryptedBallotRow}
    (hballot : ballot ∈ db.castEncryptedBallots.rows) :
    entriesOf (insertBallot db pending) ballot.id = entriesOf db ballot.id := by
  have hlt : ballot.id < db.castEncryptedBallots.nextval :=
    db.castEncryptedBallots.keys_lt ballot hballot
  rw [entriesOf, insertBallot_entries, List.filter_append]
  have hnone : ((newEntries db pending).filter fun entry =>
      entry.castEncryptedBallotId = ballot.id) = [] := by
    apply List.filter_eq_nil_iff.mpr
    intro entry hentry
    rw [castEncryptedBallotId_of_mem_newEntries hentry]
    simp only [decide_eq_true_eq]
    omega
  rw [hnone, List.append_nil]
  rfl

theorem entriesOf_insertBallot_new (hsound : SoundStore config db) :
    entriesOf (insertBallot db pending) db.castEncryptedBallots.nextval =
      newEntries db pending := by
  rw [entriesOf, insertBallot_entries, List.filter_append]
  have hold : (db.castEncryptedBallotEntries.rows.filter fun entry =>
      entry.castEncryptedBallotId = db.castEncryptedBallots.nextval) = [] := by
    apply List.filter_eq_nil_iff.mpr
    intro entry hentry
    have hlt := hsound.entry_lt_nextval hentry
    simp only [decide_eq_true_eq]
    omega
  have hnew : ((newEntries db pending).filter fun entry =>
      entry.castEncryptedBallotId = db.castEncryptedBallots.nextval) =
        newEntries db pending := by
    apply List.filter_eq_self.mpr
    intro entry hentry
    simp [castEncryptedBallotId_of_mem_newEntries hentry]
  rw [hold, hnew, List.nil_append]

theorem SoundStore.soundBallot_new (hsound : SoundStore config db)
    (haccepted : Accepted config db pending) :
    SoundBallot config (insertBallot db pending)
      (castEncryptedBallotRow pending db.castEncryptedBallots.nextval) := by
  obtain ⟨_, ⟨voter, hvoter, hid, hone⟩, hcandidates, honeHot⟩ := haccepted
  obtain ⟨election, helection, evg, hevg, heid, hstart, hend, hjoin, hgroup⟩ :=
    exists_of_eligible hone
  have hentries := @entriesOf_insertBallot_new config db pending hsound
  refine ⟨⟨election, helection, heid, hstart, hend⟩,
    ⟨voter, hvoter, hid, evg, hevg, hjoin, hgroup⟩, ?_, ?_⟩
  · have hids := newEntries_candidateId db pending
    rw [← hentries] at hids
    exact hids.trans hcandidates
  · have hvalues := congrArg (List.map (decryptEntry config))
      (newEntries_encryptedValue db pending)
    rw [← hentries, List.map_map, List.map_map] at hvalues
    exact hvalues ▸ honeHot

theorem SoundStore.insertBallot (hsound : SoundStore config db)
    (haccepted : Accepted config db pending) :
    SoundStore config (insertBallot db pending) where
  ballots := by
    intro ballot hballot
    rw [insertBallot_ballots, List.mem_append, List.mem_singleton] at hballot
    rcases hballot with hold | rfl
    · obtain ⟨hinTime, hauthorized, hcandidates, honeHot⟩ := hsound.ballots ballot hold
      have hentries := @entriesOf_insertBallot_old db pending ballot hold
      exact ⟨hinTime, hauthorized, hentries ▸ hcandidates, hentries ▸ honeHot⟩
    · exact hsound.soundBallot_new haccepted
  entries := by
    intro entry hentry
    rw [insertBallot_entries, List.mem_append] at hentry
    rw [insertBallot_ballots]
    rcases hentry with hold | hnew
    · obtain ⟨ballot, hballot, hid⟩ := hsound.entries entry hold
      exact ⟨ballot, by simp [hballot], hid⟩
    · exact ⟨castEncryptedBallotRow pending db.castEncryptedBallots.nextval, by simp,
        (castEncryptedBallotId_of_mem_newEntries hnew).symm⟩

end Insert

theorem SoundStore.processCommand {lib : Libraries} {config : Config} {db : Database}
    (hsound : SoundStore config db) (currTime : Int) (bytes : Bytes) :
    SoundStore config (processCommand lib config currTime db bytes).2 := by
  rcases processCommand_cases lib config currTime db bytes with
    hsame | ⟨command, pending, hstores, hresult⟩
  · rw [hsame]
    exact hsound
  · rw [hresult]
    exact hsound.insertBallot hstores.accepted

theorem SoundStore.run {lib : Libraries} {config : Config} {start db : Database}
    (hsound : SoundStore config start) (hrun : Reaches (CommandStep lib config) start db) :
    SoundStore config db := by
  apply hrun.invariant hsound
  intro source command target hsource hstep
  cases hstep with
  | process currTime bytes => exact hsource.processCommand currTime bytes

structure PositiveIds (db : Database) : Prop where
  nextval : 0 < db.castEncryptedBallots.nextval
  ballots : ∀ ballot ∈ db.castEncryptedBallots.rows, 0 < ballot.id

theorem PositiveIds.insertBallot {db : Database} (hpositive : PositiveIds db)
    (pending : PendingBallot) : PositiveIds (insertBallot db pending) where
  nextval := Int.add_pos hpositive.nextval one_pos
  ballots := by
    intro ballot hballot
    rw [insertBallot_ballots, List.mem_append, List.mem_singleton] at hballot
    rcases hballot with hold | rfl
    · exact hpositive.ballots ballot hold
    · exact hpositive.nextval

theorem PositiveIds.processCommand {lib : Libraries} {config : Config} {db : Database}
    (hpositive : PositiveIds db) (currTime : Int) (bytes : Bytes) :
    PositiveIds (processCommand lib config currTime db bytes).2 := by
  rcases processCommand_cases lib config currTime db bytes with
    hsame | ⟨command, pending, _, hresult⟩
  · rw [hsame]
    exact hpositive
  · rw [hresult]
    exact hpositive.insertBallot pending

theorem PositiveIds.commands {lib : Libraries} {config : Config} {start db : Database}
    (hpositive : PositiveIds start) (hrun : Reaches (CommandStep lib config) start db) :
    PositiveIds db := by
  apply hrun.invariant hpositive
  intro source command target hsource hstep
  cases hstep with
  | process currTime bytes => exact hsource.processCommand currTime bytes

theorem sameSetup_run {lib : Libraries} {config : Config} {start db : Database}
    (hrun : Reaches (CommandStep lib config) start db) : start.SameSetup db := by
  apply hrun.relates Database.SameSetup.refl
  intro source middle command target hsource hstep
  cases hstep with
  | process currTime bytes =>
      exact hsource.trans (processCommand_sameSetup lib config currTime middle bytes)

/-! Counting the entries of a candidate ballot by ballot. -/

/-- The entries of a ballot name candidates of its own election. -/
theorem SoundStore.candidate_electionId {config : Config} {db : Database}
    (hsound : SoundStore config db) {ballot : CastEncryptedBallotRow}
    (hballot : ballot ∈ db.castEncryptedBallots.rows) {entry : CastEncryptedBallotEntryRow}
    (hentry : entry ∈ entriesOf db ballot.id) {candidate : CandidateRow}
    (hcandidate : candidate ∈ db.candidates.rows) (hid : candidate.id = entry.candidateId) :
    candidate.electionId = ballot.electionId := by
  have hmem : candidate.id ∈ candidateIds db ballot.electionId := by
    rw [← (hsound.ballots ballot hballot).candidates, hid]
    exact List.mem_map_of_mem hentry
  obtain ⟨found, hfound, helection, hfoundId⟩ := mem_candidateIds.mp hmem
  obtain rfl := db.candidates.eq_of_key_eq hfound hcandidate hfoundId
  exact helection

theorem candidateIds_count {db : Database} {candidate : CandidateRow}
    (hcandidate : candidate ∈ db.candidates.rows) (electionId : Int) :
    (candidateIds db electionId).count candidate.id =
      if candidate.electionId = electionId then 1 else 0 := by
  split
  · rename_i helection
    exact List.count_eq_one_of_mem (candidateIds_nodup db electionId)
      (mem_candidateIds.mpr ⟨candidate, hcandidate, helection, rfl⟩)
  · rename_i helection
    apply List.count_eq_zero.mpr
    intro hmem
    obtain ⟨other, hother, hotherElection, hid⟩ := mem_candidateIds.mp hmem
    have hsame := db.candidates.eq_of_key_eq hother hcandidate hid
    rw [hsame] at hotherElection
    exact helection hotherElection

theorem SoundStore.entries_perm {config : Config} {db : Database}
    (hsound : SoundStore config db) :
    (db.castEncryptedBallots.rows.flatMap fun ballot => entriesOf db ballot.id).Perm
      db.castEncryptedBallotEntries.rows := by
  have hkeys : ∀ entry ∈ db.castEncryptedBallotEntries.rows,
      entry.castEncryptedBallotId ∈
        db.castEncryptedBallots.rows.map CastEncryptedBallotRow.id := by
    intro entry hentry
    obtain ⟨ballot, hballot, hid⟩ := hsound.entries entry hentry
    exact List.mem_map.mpr ⟨ballot, hballot, hid⟩
  have hperm := perm_flatMap_filter db.castEncryptedBallots.keys_nodup
    CastEncryptedBallotEntryRow.castEncryptedBallotId hkeys
  rwa [List.flatMap_map] at hperm

/-- Every ballot of an election has one entry for each of its candidates, and no
other ballot has one. -/
theorem SoundStore.candidate_entries {config : Config} {db : Database}
    (hsound : SoundStore config db) {candidate : CandidateRow}
    (hcandidate : candidate ∈ db.candidates.rows) :
    (db.castEncryptedBallotEntries.rows.countP fun entry =>
        entry.candidateId = candidate.id) =
      db.castEncryptedBallots.rows.countP fun ballot =>
        ballot.electionId = candidate.electionId := by
  rw [← hsound.entries_perm.countP_eq, List.countP_flatMap, ← sum_map_indicator]
  congr 1
  apply List.map_congr_left
  intro ballot hballot
  have hcount := candidateIds_count hcandidate ballot.electionId
  rw [← (hsound.ballots ballot hballot).candidates, List.count, List.countP_map] at hcount
  have hsame : (entriesOf db ballot.id).countP
      ((· == candidate.id) ∘ CastEncryptedBallotEntryRow.candidateId) =
        (entriesOf db ballot.id).countP fun entry => entry.candidateId = candidate.id := rfl
  rw [Function.comp_apply, ← hsame, hcount]
  simp [eq_comm]

theorem SoundStore.ballot_entries_perm {config : Config} {db : Database}
    (hsound : SoundStore config db) {candidate : CandidateRow}
    (hcandidate : candidate ∈ db.candidates.rows) :
    ((electionBallots db candidate.electionId).flatMap fun ballot =>
      (entriesOf db ballot.id).filter fun entry => entry.candidateId = candidate.id).Perm
        (db.castEncryptedBallotEntries.rows.filter fun entry =>
          entry.candidateId = candidate.id) := by
  have hnone : ∀ ballot ∈ db.castEncryptedBallots.rows,
      decide (ballot.electionId = candidate.electionId) = false →
        ((entriesOf db ballot.id).filter fun entry =>
          entry.candidateId = candidate.id) = [] := by
    intro ballot hballot hother
    apply List.filter_eq_nil_iff.mpr
    intro entry hentry
    simp only [decide_eq_true_eq, decide_eq_false_iff_not] at hother ⊢
    intro hid
    exact hother (hsound.candidate_electionId hballot hentry hcandidate hid.symm).symm
  rw [electionBallots, flatMap_filter_of_nil _ _ hnone, ← List.filter_flatMap]
  exact hsound.entries_perm.filter _

/-- After any commands every stored ballot is sound, and each candidate of an
election has as many entries as the election has ballots. -/
theorem reachable_ballots_sound {lib : Libraries} {config : Config} {start db : Database}
    (hballots : start.castEncryptedBallots.rows = [])
    (hentries : start.castEncryptedBallotEntries.rows = [])
    (hrun : Reaches (CommandStep lib config) start db) :
    start.SameSetup db ∧
      (∀ ballot ∈ db.castEncryptedBallots.rows, SoundBallot config db ballot) ∧
      ∀ candidate ∈ db.candidates.rows,
        (db.castEncryptedBallotEntries.rows.countP fun entry =>
            entry.candidateId = candidate.id) =
          db.castEncryptedBallots.rows.countP fun ballot =>
            ballot.electionId = candidate.electionId := by
  have hsound := (SoundStore.of_empty hballots hentries).run hrun
  exact ⟨sameSetup_run hrun, hsound.ballots,
    fun candidate hcandidate => hsound.candidate_entries hcandidate⟩

def votedDatabase : Database :=
  insertBallot SmallElection.reference.database (SmallElection.referencePending [])

theorem votedDatabase_entries :
    votedDatabase.castEncryptedBallotEntries.rows =
      [⟨1, 1, 1, ciphertextBytes
        (SmallElection.reference.key.modulus.encrypt (2 ^ 56) 1)⟩] := by
  have hballots : SmallElection.reference.database.castEncryptedBallots.nextval = 1 := rfl
  have hentries :
      SmallElection.reference.database.castEncryptedBallotEntries.nextval = 1 := rfl
  have hid : (1 : Int32).toInt = 1 := rfl
  simp only [votedDatabase, insertBallot_entries, SmallElection.database_entries, newEntries,
    SmallElection.referencePending, SmallElection.pending, SmallElection.ballot, serialRows,
    castEncryptedBallotEntryRow, hballots, hentries, hid, List.nil_append]

theorem processCommand_vote :
    (processCommand SmallElection.referenceLib SmallElection.reference.config 5
      SmallElection.reference.database
      (encode (SmallElection.referenceVote CommandType.castBallot.value []))).2 =
        votedDatabase := by
  rw [SmallElection.reference_stores_vote.processCommand_eq, votedDatabase]

theorem votedDatabase_reached :
    Reaches (CommandStep SmallElection.referenceLib SmallElection.reference.config)
      SmallElection.reference.database votedDatabase := by
  have hstep := @CommandStep.process SmallElection.referenceLib
    SmallElection.reference.config SmallElection.reference.database 5
    (encode (SmallElection.referenceVote CommandType.castBallot.value []))
  rw [processCommand_vote] at hstep
  exact .single hstep

theorem intColumns_insertBallot {db : Database} {pending : PendingBallot}
    (hcolumns : db.IntColumns) (hnextval : IntColumn db.castEncryptedBallots.nextval)
    (hvoter : IntColumn pending.voterId) (hcastAt : IntColumn pending.castAt)
    (hids : ∀ entry ∈ newEntries db pending, IntColumn entry.id) :
    (insertBallot db pending).IntColumns :=
  { hcolumns with
    castEncryptedBallots := by
      intro row hrow
      rw [insertBallot_ballots] at hrow
      rcases List.mem_append.mp hrow with hbefore | hnew
      · exact hcolumns.castEncryptedBallots row hbefore
      · obtain rfl := List.mem_singleton.mp hnew
        exact ⟨hnextval, hvoter, hcastAt, intColumn_toInt _⟩
    castEncryptedBallotEntries := by
      intro row hrow
      rw [insertBallot_entries] at hrow
      rcases List.mem_append.mp hrow with hbefore | hnew
      · exact hcolumns.castEncryptedBallotEntries row hbefore
      · have hid := hids row hnew
        obtain ⟨entry, _, _, _, rfl⟩ := exists_of_mem_serialRows _ hnew
        exact ⟨hid, hnextval, intColumn_toInt _⟩ }

theorem reference_intColumns : SmallElection.reference.database.IntColumns where
  elections := by
    intro row hrow
    obtain rfl : row = SmallElection.reference.election := List.mem_singleton.mp hrow
    decide
  electionsVoterGroups := by
    intro row hrow
    obtain rfl : row = SmallElection.evg := List.mem_singleton.mp hrow
    decide
  voters := by
    intro row hrow
    obtain rfl : row = SmallElection.reference.voter := List.mem_singleton.mp hrow
    decide
  candidates := by
    intro row hrow
    obtain rfl : row = SmallElection.candidate := List.mem_singleton.mp hrow
    decide
  castEncryptedBallots := by
    intro row hrow
    contradiction
  castEncryptedBallotEntries := by
    intro row hrow
    contradiction
  tallies := by
    intro row hrow
    contradiction
  tallyEntries := by
    intro row hrow
    contradiction

theorem votedDatabase_intColumns : votedDatabase.IntColumns := by
  refine intColumns_insertBallot reference_intColumns (by decide) (by decide) (by decide) ?_
  intro entry hentry
  have hid : entry.id ∈ (newEntries SmallElection.reference.database
      (SmallElection.referencePending [])).map CastEncryptedBallotEntryRow.id :=
    List.mem_map_of_mem hentry
  obtain hone : entry.id = 1 := List.mem_singleton.mp hid
  rw [hone]
  decide

theorem reachable_ballots_sound_voted :
    SmallElection.reference.database.SameSetup votedDatabase ∧
      (∀ ballot ∈ votedDatabase.castEncryptedBallots.rows,
        SoundBallot SmallElection.reference.config votedDatabase ballot) ∧
      ∀ candidate ∈ votedDatabase.candidates.rows,
        (votedDatabase.castEncryptedBallotEntries.rows.countP fun entry =>
            entry.candidateId = candidate.id) =
          votedDatabase.castEncryptedBallots.rows.countP fun ballot =>
            ballot.electionId = candidate.electionId :=
  reachable_ballots_sound SmallElection.reference.database_ballots
    SmallElection.reference.database_entries votedDatabase_reached

end VotingSystem.Server
