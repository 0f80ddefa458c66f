import VotingSystem.Server.TallyTiming

namespace VotingSystem.Server

open VotingSystem.Data VotingSystem.Crypto VotingSystem.Protos VotingSystem.Storage

/-! How many ballots of one voter the tally of an election counts. -/

/-- The entries selected for an election come from at most one ballot of each
voter. -/
def OneCounted (db : Database) : Prop :=
  ∀ voterId electionId : Int,
    ∀ ballot ∈ db.castEncryptedBallots.rows, ∀ other ∈ db.castEncryptedBallots.rows,
      ballot.voterId = voterId → other.voterId = voterId →
        ballot.id ∈ readBallots db electionId → other.id ∈ readBallots db electionId →
          ballot.id = other.id

/-- A voter has at most one stored ballot in each election. -/
def OneStored (db : Database) : Prop :=
  ∀ ballot ∈ db.castEncryptedBallots.rows, ∀ other ∈ db.castEncryptedBallots.rows,
    ballot.voterId = other.voterId → ballot.electionId = other.electionId →
      ballot.id = other.id

def FirstOfVoter (db : Database) (pending : PendingBallot) : Prop :=
  ∀ ballot ∈ db.castEncryptedBallots.rows,
    ballot.voterId = pending.voterId → ballot.electionId ≠ pending.ballot.electionId.toInt

/-- A ballot is committed only when its voter has none stored for its election. -/
def FirstBallot (world : TallyWorld) : TallyEvent → Prop
  | .commit pending => FirstOfVoter world.db pending
  | _ => True

section Stored

variable {config : Config} {db : Database} {pending : PendingBallot}

theorem SoundStore.id_mem_readBallots (hsound : SoundStore config db)
    {ballot : CastEncryptedBallotRow} (hballot : ballot ∈ db.castEncryptedBallots.rows)
    (electionId : Int) :
    ballot.id ∈ readBallots db electionId ↔ ballot.electionId = electionId := by
  rw [hsound.mem_readBallots]
  constructor
  · rintro ⟨other, hother, helection, hid⟩
    rwa [← db.castEncryptedBallots.eq_of_key_eq hother hballot hid]
  · intro helection
    exact ⟨ballot, hballot, helection, rfl⟩

theorem SoundStore.oneCounted_iff (hsound : SoundStore config db) :
    OneCounted db ↔ OneStored db := by
  constructor
  · intro hcounted ballot hballot other hother hvoter helection
    exact hcounted other.voterId other.electionId ballot hballot other hother hvoter rfl
      ((hsound.id_mem_readBallots hballot _).mpr helection)
      ((hsound.id_mem_readBallots hother _).mpr rfl)
  · intro hstored voterId electionId ballot hballot other hother hvoter hvoter' hread hread'
    rw [hsound.id_mem_readBallots hballot] at hread
    rw [hsound.id_mem_readBallots hother] at hread'
    exact hstored ballot hballot other hother (hvoter.trans hvoter'.symm)
      (hread.trans hread'.symm)

theorem OneStored.insertBallot_iff :
    OneStored (insertBallot db pending) ↔ OneStored db ∧ FirstOfVoter db pending := by
  have hnew : ∀ ballot ∈ db.castEncryptedBallots.rows,
      ballot.id ≠ db.castEncryptedBallots.nextval := fun ballot hballot =>
    (db.castEncryptedBallots.keys_lt ballot hballot).ne
  simp only [OneStored, insertBallot_ballots, List.mem_append, List.mem_singleton]
  constructor
  · intro hstored
    refine ⟨fun ballot hballot other hother => hstored ballot (.inl hballot) other (.inl hother),
      fun ballot hballot hvoter helection => ?_⟩
    exact hnew ballot hballot (hstored ballot (.inl hballot) _ (.inr rfl) hvoter helection)
  · rintro ⟨hstored, hfirst⟩ ballot hballot other hother hvoter helection
    rcases hballot with hballot | rfl
    · rcases hother with hother | rfl
      · exact hstored ballot hballot other hother hvoter helection
      · exact absurd helection (hfirst ballot hballot hvoter)
    · rcases hother with hother | rfl
      · exact absurd helection.symm (hfirst other hother hvoter.symm)
      · rfl

end Stored

section Runs

variable {config : Config} {world world' : TallyWorld} {event : TallyEvent}

/-- One step keeps one ballot per voter exactly when it meets the condition. -/
theorem OneStored.step_iff (hstep : TallyStep config world event world') :
    OneStored world'.db ↔ OneStored world.db ∧ FirstBallot world event := by
  cases hstep with
  | advance later hlater => exact (and_iff_left trivial).symm
  | check commandData commandSignature voterId pending hchecks =>
      exact (and_iff_left trivial).symm
  | commit pending hpending => exact insertBallot_iff
  | tick db hgenerate =>
      have hballots := (generateTallies_tallied hgenerate).ballots
      simp only [OneStored, hballots]
      exact (and_iff_left trivial).symm

/-- Stored ballots stay, so a second one is never made good. -/
theorem OneStored.of_later {start finish : TallyWorld}
    (hrun : Reaches (TallyStep config) start finish) (hstored : OneStored finish.db) :
    OneStored start.db := by
  induction hrun with
  | refl => exact hstored
  | tail _ hstep ih => exact ih ((step_iff hstep).mp hstored).1

theorem OneStored.run (hstored : OneStored world.db)
    (hrun : Reaches (Restricted (TallyStep config) FirstBallot) world world') :
    OneStored world'.db := by
  induction hrun with
  | refl => exact hstored
  | tail _ hrestricted ih => exact (step_iff hrestricted.1).mpr ⟨ih, hrestricted.2⟩

/-- A run in which every ballot is the first of its voter counts one ballot per
voter in every state, and a run with any other commit does not from there on. -/
theorem oneCounted_iff_firstBallots {start : TallyWorld}
    (hstart : SoundWorld config start) (hone : OneCounted start.db) :
    (∀ world, Reaches (Restricted (TallyStep config) FirstBallot) start world →
      OneCounted world.db) ∧
    ∀ world event world' finish,
      Reaches (TallyStep config) start world → TallyStep config world event world' →
        Reaches (TallyStep config) world' finish → ¬ FirstBallot world event →
          ¬ OneCounted finish.db := by
  have hinitial : OneStored start.db := hstart.sound.oneCounted_iff.mp hone
  constructor
  · intro world hrun
    exact (hstart.run hrun.of_restricted).sound.oneCounted_iff.mpr (hinitial.run hrun)
  · intro world event world' finish hrun hstep hlater hsecond hcounted
    have hfinish := hstart.run ((hrun.trans (.single hstep)).trans hlater)
    have hstored := OneStored.of_later hlater (hfinish.sound.oneCounted_iff.mp hcounted)
    exact hsecond ((OneStored.step_iff hstep).mp hstored).2

end Runs

/-! Replays. -/

theorem authenticate_of_sameSetup {db db' : Database} (hsetup : db.SameSetup db')
    (lib : Libraries) (bytes : Bytes) : authenticate lib db' bytes = authenticate lib db bytes := by
  simp only [authenticate, voterOfKey?, hsetup.voters]

/-- A command that stores a ballot stores another one when it is processed again. -/
theorem Stores.again {lib : Libraries} {config : Config} {currTime : Int}
    {db db' : Database} {bytes : Bytes} {command : Command} {pending : PendingBallot}
    (hstores : Stores lib config currTime db bytes command pending)
    (hsetup : db.SameSetup db') :
    Stores lib config currTime db' bytes command pending where
  authenticated := by
    rw [authenticate_of_sameSetup hsetup]
    exact hstores.authenticated
  dispatched := hstores.dispatched
  accepted := hstores.accepted.of_sameSetup hsetup
  castAt := hstores.castAt
  commandData := hstores.commandData
  commandSignature := hstores.commandSignature

/-! The vote of the small election, sent twice. -/

def repeatedVote : Bytes :=
  encode (SmallElection.referenceVote CommandType.castBallot.value [])

def votedTwice : Database :=
  insertBallot votedDatabase (SmallElection.referencePending [])

theorem stores_repeatedVote :
    Stores SmallElection.referenceLib SmallElection.reference.config 5
      SmallElection.reference.database repeatedVote
      (SmallElection.referenceVote CommandType.castBallot.value [])
      (SmallElection.referencePending []) :=
  SmallElection.reference_stores_vote

theorem stores_repeatedVote_again :
    Stores SmallElection.referenceLib SmallElection.reference.config 5 votedDatabase
      repeatedVote (SmallElection.referenceVote CommandType.castBallot.value [])
      (SmallElection.referencePending []) :=
  stores_repeatedVote.again (insertBallot_sameSetup _ _)

theorem processCommand_repeatedVote :
    (processCommand SmallElection.referenceLib SmallElection.reference.config 5 votedDatabase
      repeatedVote).2 = votedTwice := by
  rw [stores_repeatedVote_again.processCommand_eq, votedTwice]

theorem votedDatabase_sound : SoundStore SmallElection.reference.config votedDatabase :=
  (SoundStore.of_empty SmallElection.reference.database_ballots
    SmallElection.reference.database_entries).run votedDatabase_reached

theorem votedDatabase_holdsVote :
    ¬ FirstOfVoter votedDatabase (SmallElection.referencePending []) := by
  intro hfirst
  exact hfirst (castEncryptedBallotRow (SmallElection.referencePending []) 1)
    (List.mem_singleton.mpr rfl) rfl rfl

theorem votedTwice_not_oneCounted : ¬ OneCounted votedTwice := by
  have hsound : SoundStore SmallElection.reference.config votedTwice :=
    votedDatabase_sound.insertBallot stores_repeatedVote_again.accepted
  rw [hsound.oneCounted_iff, votedTwice, OneStored.insertBallot_iff]
  exact fun hstored => votedDatabase_holdsVote hstored.2

/-- The same bytes processed twice give the voter two counted ballots. -/
theorem replayed_vote_counted_twice :
    (processCommand SmallElection.referenceLib SmallElection.reference.config 5
        SmallElection.reference.database repeatedVote).2 = votedDatabase ∧
      (processCommand SmallElection.referenceLib SmallElection.reference.config 5
        votedDatabase repeatedVote).2 = votedTwice ∧
      Reaches (TallyStep SmallElection.reference.config)
        ⟨SmallElection.reference.database, 5, [], []⟩ ⟨votedTwice, 5, [], []⟩ ∧
      ¬ OneCounted votedTwice := by
  refine ⟨processCommand_vote, processCommand_repeatedVote, ?_, votedTwice_not_oneCounted⟩
  have hfirst := @reaches_processCommand SmallElection.reference.config
    SmallElection.referenceLib ⟨SmallElection.reference.database, 5, [], []⟩ repeatedVote
  have hsecond := @reaches_processCommand SmallElection.reference.config
    SmallElection.referenceLib ⟨votedDatabase, 5, [], []⟩ repeatedVote
  simp only [repeatedVote, processCommand_vote] at hfirst
  simp only [processCommand_repeatedVote] at hsecond
  exact hfirst.trans hsecond

theorem check_repeatedVote {db : Database}
    (hstores : Stores SmallElection.referenceLib SmallElection.reference.config 5 db
      repeatedVote (SmallElection.referenceVote CommandType.castBallot.value [])
      (SmallElection.referencePending [])) :
    TallyStep SmallElection.reference.config ⟨db, 5, [], []⟩
      (.check (SmallElection.referencePending []).commandData
        (SmallElection.referencePending []).commandSignature
        (SmallElection.referencePending []).voterId)
      ⟨db, 5, [SmallElection.referencePending []], []⟩ :=
  .check ⟨db, 5, [], []⟩ _ _ _ _
    (castBallotChecks_eq_ok.mpr ⟨hstores.accepted, rfl, hstores.castAt, rfl, rfl⟩)

theorem commit_repeatedVote (db : Database) :
    TallyStep SmallElection.reference.config
      ⟨db, 5, [SmallElection.referencePending []], []⟩
      (.commit (SmallElection.referencePending []))
      ⟨insertBallot db (SmallElection.referencePending []), 5, [], []⟩ := by
  have hcommit := @TallyStep.commit SmallElection.reference.config
    ⟨db, 5, [SmallElection.referencePending []], []⟩ (SmallElection.referencePending [])
    (List.mem_singleton.mpr rfl)
  simpa only [List.erase_cons_head] using hcommit

theorem oneCounted_iff_firstBallots_vote :
    OneCounted votedDatabase ∧ ¬ OneCounted votedTwice := by
  have hstart : SoundWorld SmallElection.reference.config
      ⟨SmallElection.reference.database, 5, [], []⟩ :=
    ⟨.of_empty SmallElection.reference.database_ballots
      SmallElection.reference.database_entries, by simp⟩
  have hnone : OneCounted SmallElection.reference.database := by
    intro voterId electionId ballot hballot
    rw [SmallElection.reference.database_ballots] at hballot
    exact absurd hballot List.not_mem_nil
  have hcheck := check_repeatedVote stores_repeatedVote
  have hcommit := commit_repeatedVote SmallElection.reference.database
  rw [← votedDatabase] at hcommit
  have hcheckAgain := check_repeatedVote stores_repeatedVote_again
  have hcommitAgain := commit_repeatedVote votedDatabase
  rw [← votedTwice] at hcommitAgain
  have hempty : FirstBallot
      ⟨SmallElection.reference.database, 5, [SmallElection.referencePending []], []⟩
      (.commit (SmallElection.referencePending [])) := by
    intro ballot hballot
    rw [SmallElection.reference.database_ballots] at hballot
    exact absurd hballot List.not_mem_nil
  have hruns := oneCounted_iff_firstBallots hstart hnone
  constructor
  · exact hruns.1 _ (.tail (.single ⟨hcheck, trivial⟩) ⟨hcommit, hempty⟩)
  · have hrun := ((Reaches.single hcheck).trans (.single hcommit)).trans (.single hcheckAgain)
    exact hruns.2 _ _ _ _ hrun hcommitAgain .refl votedDatabase_holdsVote

end VotingSystem.Server
