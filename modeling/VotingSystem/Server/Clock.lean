import VotingSystem.Server.FinalTallies

namespace VotingSystem.Server

open VotingSystem.Data VotingSystem.Crypto VotingSystem.Protos VotingSystem.Storage

/-! `Clock::generateTallies` one statement at a time, in a transaction that commands
and new elections can interleave with and that can be rolled back. There is one clock,
so at most one such transaction. -/

/-- `existing` keeps the elections at the start, the tables are as the transaction
sees them. -/
structure OpenTick where
  existing : List Int
  remaining : List Int
  tallies : SerialTable TallyRow
  tallyEntries : SerialTable TallyEntryRow

def OpenTick.view (tick : OpenTick) (db : Database) : Database :=
  { db with tallies := tick.tallies, tallyEntries := tick.tallyEntries }

structure ClockWorld where
  db : Database
  tick : Option OpenTick

/-- New elections, with whatever belongs to them. -/
structure CreatedElections (db db' : Database) : Prop where
  elections : ∃ created, db'.elections.rows = db.elections.rows ++ created
  tallies : db'.tallies = db.tallies
  tallyEntries : db'.tallyEntries = db.tallyEntries

inductive ClockEvent
  | command (currTime : Int) (bytes : Bytes)
  | create
  | start
  | tally
  | commit
  | rollback

inductive ClockStep (lib : Libraries) (config : Config) :
    ClockWorld → ClockEvent → ClockWorld → Prop
  | command (world : ClockWorld) (currTime : Int) (bytes : Bytes) :
      ClockStep lib config world (.command currTime bytes)
        { world with db := (processCommand lib config currTime world.db bytes).2 }
  | create (world : ClockWorld) (db : Database)
      (hcreated : CreatedElections world.db db) :
      ClockStep lib config world .create { world with db := db }
  | start (db : Database) :
      ClockStep lib config ⟨db, none⟩ .start
        ⟨db, some
          { existing := db.elections.rows.map ElectionRow.id
            remaining := untallied db
            tallies := db.tallies
            tallyEntries := db.tallyEntries }⟩
  | tally (db db' : Database) (tick : OpenTick) (electionId : Int) (remaining : List Int)
      (hremaining : tick.remaining = electionId :: remaining)
      (hgenerate : generateTally config (tick.view db) electionId = some db') :
      ClockStep lib config ⟨db, some tick⟩ .tally
        ⟨db, some
          { tick with
            remaining := remaining
            tallies := db'.tallies
            tallyEntries := db'.tallyEntries }⟩
  | commit (db : Database) (tick : OpenTick) (hdone : tick.remaining = []) :
      ClockStep lib config ⟨db, some tick⟩ .commit ⟨tick.view db, none⟩
  | rollback (db : Database) (tick : OpenTick) :
      ClockStep lib config ⟨db, some tick⟩ .rollback
        ⟨{ db with
            tallies := db.tallies.skipTo tick.tallies.nextval
            tallyEntries := db.tallyEntries.skipTo tick.tallyEntries.nextval }, none⟩

/-! What the steps do to the tally tables. -/

theorem processCommand_tallyTables (lib : Libraries) (config : Config) (currTime : Int)
    (db : Database) (bytes : Bytes) :
    (processCommand lib config currTime db bytes).2.tallies = db.tallies ∧
      (processCommand lib config currTime db bytes).2.tallyEntries = db.tallyEntries := by
  rcases processCommand_cases lib config currTime db bytes with
    hsame | ⟨command, pending, _, hresult⟩
  · rw [hsame]
    exact ⟨rfl, rfl⟩
  · rw [hresult]
    exact ⟨rfl, rfl⟩

/-- The rows of both tally tables stay, in their places. -/
structure KeepsTallies (db later : Database) : Prop where
  tallies : db.tallies.rows <+: later.tallies.rows
  tallyEntries : db.tallyEntries.rows <+: later.tallyEntries.rows

namespace KeepsTallies

theorem refl (db : Database) : KeepsTallies db db := ⟨List.prefix_rfl, List.prefix_rfl⟩

theorem trans {first second third : Database} (h : KeepsTallies first second)
    (h' : KeepsTallies second third) : KeepsTallies first third :=
  ⟨h.tallies.trans h'.tallies, h.tallyEntries.trans h'.tallyEntries⟩

theorem insertTally (db : Database) (electionId : Int) (tallies : List CandidateTally) :
    KeepsTallies db (Server.insertTally db electionId tallies) where
  tallies := List.prefix_append _ _
  tallyEntries := by
    rw [insertTally_entries]
    exact List.prefix_append _ _

end KeepsTallies

/-! One tally for each election. -/

structure OpenTick.Sound (tick : OpenTick) (db : Database) : Prop where
  one : OneTallyPerElection (tick.view db)
  keeps : KeepsTallies db (tick.view db)
  remaining_nodup : tick.remaining.Nodup
  remaining_new : ∀ electionId ∈ tick.remaining, ∀ tally ∈ tick.tallies.rows,
    tally.electionId ≠ electionId
  existing : ∀ electionId ∈ tick.existing,
    electionId ∈ tick.remaining ∨ ∃ tally ∈ tick.tallies.rows, tally.electionId = electionId

structure SoundClock (world : ClockWorld) : Prop where
  one : OneTallyPerElection world.db
  tick : ∀ tick, world.tick = some tick → tick.Sound world.db

section Steps

variable {lib : Libraries} {config : Config}

theorem OpenTick.Sound.of_tallyTables {tick : OpenTick} {db db' : Database}
    (hsound : tick.Sound db) (htallies : db'.tallies = db.tallies)
    (hentries : db'.tallyEntries = db.tallyEntries) : tick.Sound db' where
  one := hsound.one
  keeps := by
    constructor
    · rw [htallies]
      exact hsound.keeps.tallies
    · rw [hentries]
      exact hsound.keeps.tallyEntries
  remaining_nodup := hsound.remaining_nodup
  remaining_new := hsound.remaining_new
  existing := hsound.existing

theorem SoundClock.of_tallyTables {world : ClockWorld} (hworld : SoundClock world)
    {db : Database} (htallies : db.tallies = world.db.tallies)
    (hentries : db.tallyEntries = world.db.tallyEntries) :
    SoundClock { world with db := db } where
  one := by
    rw [OneTallyPerElection, htallies]
    exact hworld.one
  tick := fun tick htick => (hworld.tick tick htick).of_tallyTables htallies hentries

/-- The first query of a tick selects exactly the elections that have no tally. -/
theorem OpenTick.Sound.start {db : Database} (hone : OneTallyPerElection db) :
    OpenTick.Sound
      { existing := db.elections.rows.map ElectionRow.id
        remaining := untallied db
        tallies := db.tallies
        tallyEntries := db.tallyEntries } db where
  one := hone
  keeps := .refl db
  remaining_nodup := untallied_nodup db
  remaining_new := fun _ hmem => (mem_untallied.mp hmem).2
  existing := by
    intro electionId hmem
    obtain ⟨election, helection, rfl⟩ := List.mem_map.mp hmem
    by_cases htallied : ∃ tally ∈ db.tallies.rows, tally.electionId = election.id
    · exact .inr htallied
    · left
      push Not at htallied
      exact mem_untallied.mpr ⟨⟨election, helection, rfl⟩, htallied⟩

theorem OpenTick.Sound.tally {tick : OpenTick} {db db' : Database}
    (hsound : tick.Sound db) {electionId : Int} {remaining : List Int}
    (hremaining : tick.remaining = electionId :: remaining)
    (hgenerate : generateTally config (tick.view db) electionId = some db') :
    OpenTick.Sound
      { tick with
        remaining := remaining
        tallies := db'.tallies
        tallyEntries := db'.tallyEntries } db := by
  obtain ⟨hone, hkeeps, hnodup, hnew, hexisting⟩ := hsound
  rw [hremaining] at hnodup hnew hexisting
  obtain ⟨hother, hnodup⟩ := List.nodup_cons.mp hnodup
  have htallied := generateTally_tallied hgenerate
  obtain ⟨ctexts, _, _, rfl⟩ := generateTally_eq_some.mp hgenerate
  refine
    { one := hone.of_tallied htallied (List.nodup_singleton _) ?_
      keeps := hkeeps.trans (.insertTally _ electionId _)
      remaining_nodup := hnodup
      remaining_new := htallied.remaining_new hother hnew
      existing := ?_ }
  · intro other hmem
    rw [List.mem_singleton.mp hmem]
    exact hnew electionId (by simp)
  · intro other hmem
    rcases hexisting other hmem with hleft | hdone
    · rcases List.mem_cons.mp hleft with rfl | hleft
      · exact .inr (htallied.mem_tallies.mpr (.inr (List.mem_singleton.mpr rfl)))
      · exact .inl hleft
    · exact .inr (htallied.mem_tallies.mpr (.inl hdone))

theorem SoundClock.step {world world' : ClockWorld} {event : ClockEvent}
    (hworld : SoundClock world) (hstep : ClockStep lib config world event world') :
    SoundClock world' ∧ KeepsTallies world.db world'.db := by
  cases hstep with
  | command _ currTime bytes =>
      obtain ⟨htallies, hentries⟩ :=
        processCommand_tallyTables lib config currTime world.db bytes
      refine ⟨hworld.of_tallyTables htallies hentries, ?_⟩
      exact ⟨by rw [htallies], by rw [hentries]⟩
  | create _ db hcreated =>
      refine ⟨hworld.of_tallyTables hcreated.tallies hcreated.tallyEntries, ?_⟩
      exact ⟨by rw [hcreated.tallies], by rw [hcreated.tallyEntries]⟩
  | start db =>
      refine ⟨⟨hworld.one, fun tick htick => ?_⟩, .refl db⟩
      rw [← Option.some.inj htick]
      exact .start hworld.one
  | tally db db' tick electionId remaining hremaining hgenerate =>
      refine ⟨⟨hworld.one, fun tick' htick => ?_⟩, .refl db⟩
      rw [← Option.some.inj htick]
      exact (hworld.tick tick rfl).tally hremaining hgenerate
  | commit db tick hdone =>
      obtain ⟨hone, hkeeps, _, _, _⟩ := hworld.tick tick rfl
      exact ⟨⟨hone, by simp⟩, hkeeps⟩
  | rollback db tick =>
      exact ⟨⟨hworld.one, by simp⟩, List.prefix_rfl, List.prefix_rfl⟩

theorem SoundClock.run {world later : ClockWorld} (hworld : SoundClock world)
    (hrun : Reaches (ClockStep lib config) world later) :
    SoundClock later ∧ KeepsTallies world.db later.db := by
  induction hrun with
  | refl => exact ⟨hworld, .refl world.db⟩
  | tail _ hstep ih =>
      obtain ⟨hmiddle, hkeeps⟩ := ih
      obtain ⟨hlater, hkeeps'⟩ := hmiddle.step hstep
      exact ⟨hlater, hkeeps.trans hkeeps'⟩

/-! A tick without interference is `generateTallies`. -/

theorem Tallied.eq_view {elections : List Int} {db db' : Database}
    (htallied : Tallied elections db db') :
    { db with tallies := db'.tallies, tallyEntries := db'.tallyEntries } = db' := by
  obtain ⟨⟨helections, hevgs, hvoters, hcandidates⟩, hballots, hentries, _⟩ := htallied
  cases db'
  simp only at helections hevgs hvoters hcandidates hballots hentries
  simp only [helections, hevgs, hvoters, hcandidates, hballots, hentries]

theorem reaches_tallies {db db' : Database} {tick : OpenTick}
    (hfold : tick.remaining.foldlM (generateTally config) (tick.view db) = some db') :
    Reaches (ClockStep lib config) ⟨db, some tick⟩
      ⟨db, some
        { tick with
          remaining := []
          tallies := db'.tallies
          tallyEntries := db'.tallyEntries }⟩ := by
  obtain ⟨existing, remaining, tallies, tallyEntries⟩ := tick
  induction remaining generalizing tallies tallyEntries with
  | nil =>
      simp only [List.foldlM_nil, Option.pure_def, Option.some.injEq] at hfold
      subst hfold
      exact .refl
  | cons electionId remaining ih =>
      rw [List.foldlM_cons] at hfold
      obtain ⟨middle, hgenerate, hrest⟩ := Option.bind_eq_some_iff.mp hfold
      have hmiddle := (generateTally_tallied hgenerate).eq_view
      have hlater := ih middle.tallies middle.tallyEntries (by rw [← hmiddle] at hrest; exact hrest)
      exact (Reaches.single (.tally db middle _ electionId remaining rfl hgenerate)).trans
        hlater

theorem reaches_generateTallies {db db' : Database}
    (hgenerate : generateTallies config db = some db') :
    Reaches (ClockStep lib config) ⟨db, none⟩ ⟨db', none⟩ := by
  have hview := (generateTallies_tallied hgenerate).eq_view
  have htallies := @reaches_tallies lib config db db'
    { existing := db.elections.rows.map ElectionRow.id
      remaining := untallied db
      tallies := db.tallies
      tallyEntries := db.tallyEntries } hgenerate
  have hcommit := @ClockStep.commit lib config db
    { existing := db.elections.rows.map ElectionRow.id
      remaining := []
      tallies := db'.tallies
      tallyEntries := db'.tallyEntries } rfl
  simp only [OpenTick.view, hview] at hcommit
  exact ((Reaches.single (.start db)).trans htallies).tail hcommit

end Steps

/-- No election ever has two tallies, a successful tick leaves one for each election
that existed at its start, rows of the tally tables stay, and `getElections` always
finds a single tally. -/
theorem one_tally_per_election {lib : Libraries} {config : Config} {start : Database}
    (hone : OneTallyPerElection start) {world : ClockWorld}
    (hrun : Reaches (ClockStep lib config) ⟨start, none⟩ world) :
    OneTallyPerElection world.db ∧
      (∀ tick next, world.tick = some tick → ClockStep lib config world .commit next →
        ∀ electionId ∈ tick.existing,
          ∃! tally, tally ∈ next.db.tallies.rows ∧ tally.electionId = electionId) ∧
        (∀ later, Reaches (ClockStep lib config) world later →
          KeepsTallies world.db later.db) ∧
          ∀ pagination, ∃ elections, electionsMessage world.db pagination = some elections := by
  have hinitial : SoundClock ⟨start, none⟩ := ⟨hone, by simp⟩
  have hworld := (hinitial.run hrun).1
  refine ⟨hworld.one, ?_, fun later hlater => (hworld.run hlater).2,
    hworld.one.exists_electionsMessage⟩
  intro tick next htick hcommit electionId hexisting
  cases hcommit with
  | commit db tick' hdone =>
      rw [← Option.some.inj htick] at hexisting
      obtain ⟨hview, _, _, _, htallied⟩ := hworld.tick tick' rfl
      rcases htallied electionId hexisting with hleft | ⟨tally, htally, helection⟩
      · simp [hdone] at hleft
      · refine ⟨tally, ⟨htally, helection⟩, ?_⟩
        rintro other ⟨hother, hsame⟩
        exact hview.eq_of_electionId_eq hother htally (hsame.trans helection.symm)

/-- The tick of the small election before its commit. -/
def smallTick : OpenTick where
  existing := [1]
  remaining := []
  tallies := talliedSmall.tallies
  tallyEntries := talliedSmall.tallyEntries

theorem smallTick_reached :
    Reaches (ClockStep SmallElection.referenceLib SmallElection.reference.config)
      ⟨SmallElection.reference.database, none⟩
      ⟨SmallElection.reference.database, some smallTick⟩ := by
  have htallies := @reaches_tallies SmallElection.referenceLib SmallElection.reference.config
    SmallElection.reference.database talliedSmall
    ⟨[1], [1], SmallElection.reference.database.tallies,
      SmallElection.reference.database.tallyEntries⟩ rfl
  exact (Reaches.single (.start SmallElection.reference.database)).trans htallies

theorem one_tally_per_election_small :
    OneTallyPerElection SmallElection.reference.database ∧
      (∃! tally, tally ∈ talliedSmall.tallies.rows ∧ tally.electionId = 1) ∧
        (∀ later, Reaches
            (ClockStep SmallElection.referenceLib SmallElection.reference.config)
            ⟨SmallElection.reference.database, some smallTick⟩ later →
          KeepsTallies SmallElection.reference.database later.db) ∧
          ∀ pagination, ∃ elections,
            electionsMessage SmallElection.reference.database pagination =
              some elections := by
  obtain ⟨hone, hcommitted, hkeeps, hmessage⟩ :=
    @one_tally_per_election SmallElection.referenceLib SmallElection.reference.config
      SmallElection.reference.database .nil _ smallTick_reached
  refine ⟨hone, ?_, hkeeps, hmessage⟩
  exact hcommitted smallTick _ rfl (.commit SmallElection.reference.database smallTick rfl) 1
    (List.mem_singleton.mpr rfl)

end VotingSystem.Server
