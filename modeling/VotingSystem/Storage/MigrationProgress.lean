import VotingSystem.Data.Progress
import VotingSystem.Storage.ConcurrentMigrations

namespace VotingSystem.Storage

open VotingSystem.Data

/-! Calls of `Database::migrate` that wait for one another come to their end. -/

namespace MigrateCall

def Ended : MigrateCall → Prop
  | committed _ => True
  | failed => True
  | _ => False

/-- The statements that a call still has, with directories of at most `size` files. -/
def statementsLeft (size : Nat) : MigrateCall → Nat
  | ready => 3 * size + 3
  | locked => 3 * size + 2
  | scanning _ files _ => 3 * files.length + 1
  | selected _ _ files _ => 3 * files.length + 3
  | executed _ _ files _ => 3 * files.length + 2
  | committed _ => 0
  | failed => 0

/-- The file that a call is about to record is not in the table. -/
def Unlisted (table : Migrated) : MigrateCall → Prop
  | selected _ file _ own => file ∉ (table.append own).migrations
  | executed _ file _ own => file ∉ (table.append own).migrations
  | _ => True

theorem unlisted_of_not_holdsLock {call : MigrateCall} (hfree : ¬ call.HoldsLock)
    (table : Migrated) : call.Unlisted table := by
  cases call with
  | selected seen file files own => exact absurd trivial hfree
  | executed seen file files own => exact absurd trivial hfree
  | _ => trivial

theorem eq_ready {call : MigrateCall} (hended : ¬ call.Ended) (hfree : ¬ call.HoldsLock) :
    call = .ready := by
  cases call with
  | ready => rfl
  | committed seen => exact absurd trivial hended
  | failed => exact absurd trivial hended
  | _ => exact absurd trivial hfree

theorem statementsLeft_pos {call : MigrateCall} (hended : ¬ call.Ended) (size : Nat) :
    0 < call.statementsLeft size := by
  cases call with
  | committed seen => exact absurd trivial hended
  | failed => exact absurd trivial hended
  | _ => exact Nat.succ_pos _

end MigrateCall

/-- Only the first `count` calls are made, and no directory has more than `size` files. -/
def Within (count size : Nat) (_ : MigrateWorld) (label : Nat × MigrateStatement) : Prop :=
  label.1 < count ∧ ∀ directory, label.2 = .listDirectory directory →
    (orderedSet directory).length ≤ size

/-- No statement fails, every file can be read, and the directory stays as it is. -/
def Undisturbed (count : Nat) (directory : List String) (_ : MigrateWorld)
    (label : Nat × MigrateStatement) : Prop :=
  label.1 < count ∧ label.2 ≠ .fail ∧ label.2 ≠ .execute false ∧
    ∀ listed, label.2 = .listDirectory listed → listed = directory

namespace MigrateWorld

def Unfinished (count : Nat) (world : MigrateWorld) : Prop :=
  ∃ call < count, ¬ (world.calls call).Ended

def rank (count size : Nat) (world : MigrateWorld) : Nat :=
  ∑ call ∈ Finset.range count, (world.calls call).statementsLeft size

/-- The lock is held by the one call that is past it. -/
structure Runnable (count : Nat) (world : MigrateWorld) : Prop where
  holder : ∀ call, (world.calls call).HoldsLock ↔ world.lock = some call
  within : ∀ call, world.lock = some call → call < count
  unlisted : ∀ call, (world.calls call).Unlisted world.committed

namespace Runnable

variable {count : Nat} {world : MigrateWorld} {call : Nat} {next : MigrateCall}

theorem start (count : Nat) : MigrateWorld.start.Runnable count where
  holder := by
    intro call
    exact ⟨False.elim, fun hlock => by cases hlock⟩
  within := by
    intro call hlock
    cases hlock
  unlisted := by
    intro call
    trivial

/-- A call goes on, with the lock as it leaves it. -/
theorem goOn {lock : Option Nat} (hworld : world.Runnable count)
    (hholder : next.HoldsLock ↔ lock = some call)
    (hothers : ∀ other ≠ call, (world.calls other).HoldsLock ↔ lock = some other)
    (hwithin : ∀ other, lock = some other → other < count)
    (hunlisted : next.Unlisted world.committed) :
    { world.setCall call next with lock := lock }.Runnable count where
  holder := setCall_calls (p := fun other made => made.HoldsLock ↔ lock = some other)
    hholder hothers
  within := hwithin
  unlisted := setCall_calls (p := fun _ made => made.Unlisted world.committed)
    hunlisted fun other _ => hworld.unlisted other

/-- The holder of the lock goes on and keeps it. -/
theorem work (hworld : world.Runnable count) (hholds : (world.calls call).HoldsLock)
    (hnext : next.HoldsLock) (hunlisted : next.Unlisted world.committed) :
    (world.setCall call next).Runnable count :=
  hworld.goOn (iff_of_true hnext ((hworld.holder call).mp hholds))
    (fun other _ => hworld.holder other) hworld.within hunlisted

theorem released_iff {lock : Option Nat} {other : Nat} (hne : other ≠ call) :
    (if lock = some call then none else lock) = some other ↔ lock = some other := by
  by_cases hlock : lock = some call
  · rw [if_pos hlock, hlock, Option.some.injEq]
    exact iff_of_false (by simp) fun heq => hne heq.symm
  · rw [if_neg hlock]

theorem not_released {lock : Option Nat} :
    (if lock = some call then none else lock) ≠ some call := by
  by_cases hlock : lock = some call
  · simp [hlock]
  · rwa [if_neg hlock]

theorem of_released (hworld : world.Runnable count) {other : Nat}
    (hlock : (if world.lock = some call then none else world.lock) = some other) :
    other < count := by
  by_cases hheld : world.lock = some call
  · rw [if_pos hheld] at hlock
    cases hlock
  · rw [if_neg hheld] at hlock
    exact hworld.within other hlock

/-- A call that ends lets the lock go if it held it. -/
theorem endCall (hworld : world.Runnable count) (hnext : ¬ next.HoldsLock) :
    ((world.setCall call next).release call).Runnable count :=
  hworld.goOn (iff_of_false hnext not_released)
    (fun other hne => (hworld.holder other).trans (released_iff hne).symm)
    (fun _ hlock => hworld.of_released hlock) (MigrateCall.unlisted_of_not_holdsLock hnext _)

/-- When the holder of the lock commits, nobody else is about to record a file. -/
theorem commit (hworld : world.Runnable count) {seen : List String} {own : Migrated}
    (hcall : world.calls call = .scanning seen [] own) :
    { (world.setCall call (.committed seen)).release call with
      committed := world.committed.append own }.Runnable count := by
  have hended := @endCall count world call (.committed seen) hworld (fun hholds => hholds)
  have hlock := (hworld.holder call).mp (by rw [hcall]; trivial)
  refine ⟨hended.holder, hended.within, ?_⟩
  apply setCall_calls (p := fun _ made => made.Unlisted (world.committed.append own))
  · trivial
  · intro other hne
    apply MigrateCall.unlisted_of_not_holdsLock
    intro hholds
    rw [hworld.holder, hlock, Option.some.injEq] at hholds
    exact hne hholds.symm

theorem step {size : Nat} (hworld : world.Runnable count)
    {label : Nat × MigrateStatement} (hwithin : Within count size world label)
    {world' : MigrateWorld} (hstep : MigrateStep world label world') :
    world'.Runnable count := by
  have hunlisted := hworld.unlisted
  cases hstep with
  | lock call hcall hfree =>
      have hlocked : MigrateCall.locked.HoldsLock := trivial
      apply hworld.goOn (iff_of_true hlocked rfl) _ _ trivial
      · intro other hne
        rw [hworld.holder, hfree, Option.some.injEq]
        exact iff_of_false (by simp) fun heq => hne heq.symm
      · intro other hlock
        obtain rfl := Option.some.inj hlock
        exact hwithin.1
  | listDirectory call directory hcall => exact hworld.work (by rw [hcall]; trivial) trivial trivial
  | skip call seen file files own hcall hfound =>
      exact hworld.work (by rw [hcall]; trivial) trivial trivial
  | select call seen file files own hcall hnew =>
      exact hworld.work (by rw [hcall]; trivial) trivial hnew
  | execute call seen file files own readable hcall =>
      have hfile := hunlisted call
      rw [hcall] at hfile
      have hexecuted : (MigrateCall.executed seen file files
          (own.execute file readable)).HoldsLock := trivial
      apply hworld.work (by rw [hcall]; trivial) hexecuted
      rw [MigrateCall.Unlisted, Migrated.append, Migrated.execute_migrations]
      exact hfile
  | insert call seen file files own hcall hkey =>
      exact hworld.work (by rw [hcall]; trivial) trivial trivial
  | commit call seen own hcall => exact hworld.commit hcall
  | fail call hcall => exact hworld.endCall fun hholds => hholds

theorem run {size : Nat}
    (hrun : Reaches (Restricted MigrateStep (Within count size)) MigrateWorld.start world) :
    world.Runnable count := by
  apply hrun.invariant (start count)
  intro source label target hsource hstep
  exact hsource.step hstep.2 hstep.1

end Runnable

/-! Each statement is one less to come. -/

section Rank

variable {count size : Nat} {world world' : MigrateWorld} {label : Nat × MigrateStatement}

/-- A statement moves one call. -/
theorem exists_next (hwithin : Within count size world label)
    (hstep : MigrateStep world label world') :
    ∃ next, world'.calls = Function.update world.calls label.1 next ∧
      next.statementsLeft size < (world.calls label.1).statementsLeft size := by
  cases hstep with
  | lock call hcall hfree =>
      refine ⟨_, rfl, ?_⟩
      rw [hcall]
      simp only [MigrateCall.statementsLeft]
      omega
  | listDirectory call directory hcall =>
      have hlength := hwithin.2 directory rfl
      refine ⟨_, rfl, ?_⟩
      rw [hcall]
      simp only [MigrateCall.statementsLeft]
      omega
  | skip call seen file files own hcall hfound =>
      refine ⟨_, rfl, ?_⟩
      rw [hcall]
      simp only [MigrateCall.statementsLeft, List.length_cons]
      omega
  | select call seen file files own hcall hnew =>
      refine ⟨_, rfl, ?_⟩
      rw [hcall]
      simp only [MigrateCall.statementsLeft, List.length_cons]
      omega
  | execute call seen file files own readable hcall =>
      refine ⟨_, rfl, ?_⟩
      rw [hcall]
      simp only [MigrateCall.statementsLeft]
      omega
  | insert call seen file files own hcall hkey =>
      refine ⟨_, rfl, ?_⟩
      rw [hcall]
      simp only [MigrateCall.statementsLeft]
      omega
  | commit call seen own hcall =>
      refine ⟨_, rfl, ?_⟩
      rw [hcall]
      simp only [MigrateCall.statementsLeft]
      omega
  | fail call hcall =>
      refine ⟨_, rfl, MigrateCall.statementsLeft_pos ?_ size⟩
      intro hended
      rcases hcall with hready | hholds
      · rw [hready] at hended
        exact hended
      · cases hposition : world.calls call <;> rw [hposition] at hended hholds <;>
          first | exact hended.elim | exact hholds.elim

theorem rank_lt (hwithin : Within count size world label)
    (hstep : MigrateStep world label world') : world'.rank count size < world.rank count size := by
  obtain ⟨next, hcalls, hlower⟩ := exists_next hwithin hstep
  apply Finset.sum_lt_sum
  · intro call _
    rw [hcalls]
    by_cases hsame : call = label.1
    · rw [hsame, Function.update_self]
      exact hlower.le
    · rw [Function.update_of_ne hsame]
  · refine ⟨label.1, Finset.mem_range.mpr hwithin.1, ?_⟩
    rw [hcalls, Function.update_self]
    exact hlower

theorem rank_start (count size : Nat) : MigrateWorld.start.rank count size = count * (3 * size + 3) := by
  have hready : ∀ call ∈ Finset.range count,
      (MigrateWorld.start.calls call).statementsLeft size = 3 * size + 3 := fun _ _ => rfl
  rw [rank, Finset.sum_const_nat hready, Finset.card_range]

end Rank

/-! Somebody can always go on. -/

section Enabled

variable {count size : Nat} {directory : List String} {world : MigrateWorld}

theorem within_of_undisturbed (hsize : (orderedSet directory).length ≤ size)
    {label : Nat × MigrateStatement} (hundisturbed : Undisturbed count directory world label) :
    Within count size world label := by
  refine ⟨hundisturbed.1, fun listed hlist => ?_⟩
  rw [hundisturbed.2.2.2 listed hlist]
  exact hsize

/-- The lock is free for a call that waits for it, or its holder has a next statement. -/
theorem Runnable.exists_step (hworld : world.Runnable count) (directory : List String)
    (hunfinished : world.Unfinished count) :
    ∃ label target, Restricted MigrateStep (Undisturbed count directory) world label target := by
  cases hlock : world.lock with
  | none =>
      obtain ⟨call, hlt, hended⟩ := hunfinished
      have hfree : ¬ (world.calls call).HoldsLock := by
        rw [hworld.holder, hlock]
        simp
      have hready := MigrateCall.eq_ready hended hfree
      exact ⟨_, _, .lock world call hready hlock, hlt, by simp, by simp, by simp⟩
  | some holder =>
      have hlt := hworld.within holder hlock
      have hholds := (hworld.holder holder).mpr hlock
      have hunlisted := hworld.unlisted holder
      cases hcall : world.calls holder with
      | ready =>
          rw [hcall] at hholds
          exact hholds.elim
      | locked =>
          exact ⟨_, _, .listDirectory world holder directory hcall, hlt, by simp, by simp,
            by simp⟩
      | scanning seen files own =>
          cases files with
          | nil => exact ⟨_, _, .commit world holder seen own hcall, hlt, by simp, by simp, by simp⟩
          | cons file files =>
              by_cases hfound : file ∈ (world.committed.append own).migrations
              · exact ⟨_, _, .skip world holder seen file files own hcall hfound, hlt, by simp,
                  by simp, by simp⟩
              · exact ⟨_, _, .select world holder seen file files own hcall hfound, hlt,
                  by simp, by simp, by simp⟩
      | selected seen file files own =>
          exact ⟨_, _, .execute world holder seen file files own true hcall, hlt, by simp,
            by simp, by simp⟩
      | executed seen file files own =>
          rw [hcall] at hunlisted
          exact ⟨_, _, .insert world holder seen file files own hcall hunlisted, hlt, by simp,
            by simp, by simp⟩
      | committed seen =>
          rw [hcall] at hholds
          exact hholds.elim
      | failed =>
          rw [hcall] at hholds
          exact hholds.elim

/-- Undisturbed, no more calls fail. -/
theorem failed_of_undisturbed {label : Nat × MigrateStatement} {world' : MigrateWorld}
    (hstep : Restricted MigrateStep (Undisturbed count directory) world label world')
    (call : Nat) (hfailed : world'.calls call = .failed) : world.calls call = .failed := by
  obtain ⟨hstep, _, hnofail, _⟩ := hstep
  have hmoved : ∀ moved next, next ≠ .failed →
      (world.setCall moved next).calls call = .failed → world.calls call = .failed := by
    intro moved next hnext
    exact setCall_calls (p := fun other made => made = .failed → world.calls other = .failed)
      (fun heq => absurd heq hnext) (fun other _ hother => hother) call
  cases hstep with
  | lock moved hcall hfree => exact hmoved moved .locked (by simp) hfailed
  | listDirectory moved listed hcall => exact hmoved moved _ (by simp) hfailed
  | skip moved seen file files own hcall hfound => exact hmoved moved _ (by simp) hfailed
  | select moved seen file files own hcall hnew => exact hmoved moved _ (by simp) hfailed
  | execute moved seen file files own readable hcall => exact hmoved moved _ (by simp) hfailed
  | insert moved seen file files own hcall hkey => exact hmoved moved _ (by simp) hfailed
  | commit moved seen own hcall => exact hmoved moved _ (by simp) hfailed
  | fail moved hcall => exact absurd rfl hnofail

theorem failed_of_undisturbed_run {later : MigrateWorld}
    (hrun : Reaches (Restricted MigrateStep (Undisturbed count directory)) world later)
    (call : Nat) (hfailed : later.calls call = .failed) : world.calls call = .failed := by
  induction hrun with
  | refl => exact hfailed
  | tail _ hstep ih => exact ih (failed_of_undisturbed hstep call hfailed)

theorem progress_of_condition {condition : MigrateWorld → Nat × MigrateStatement → Prop}
    (hwithin : ∀ {world label}, condition world label → Within count size world label)
    (henabled : ∀ {world label}, Undisturbed count directory world label → condition world label) :
    Progress (Restricted MigrateStep condition) (Runnable count) (Unfinished count)
      (fun _ _ => True) (rank count size) where
  preserved := by
    intro source label target hsource _ hstep
    exact hsource.step (hwithin hstep.2) hstep.1
  decreases := by
    intro source label target _ _ hstep _
    exact rank_lt (hwithin hstep.2) hstep.1
  nonincreasing := by
    intro source label target _ _ hstep
    exact (rank_lt (hwithin hstep.2) hstep.1).le
  enabled := by
    intro source hsource hunfinished
    obtain ⟨label, target, hstep, hundisturbed⟩ := hsource.exists_step directory hunfinished
    exact ⟨label, target, ⟨hstep, henabled hundisturbed⟩, trivial⟩

end Enabled

theorem rank_le_of_run {count size : Nat} {world : MigrateWorld}
    (hrun : Reaches (Restricted MigrateStep (Within count size)) MigrateWorld.start world) :
    world.rank count size ≤ count * (3 * size + 3) := by
  rw [← rank_start]
  induction hrun with
  | refl => exact le_refl _
  | tail _ hstep ih => exact (rank_lt hstep.2 hstep.1).le.trans ih

end MigrateWorld

/-- Calls of `migrate` that run at the same time wait for one another but never for good.
However their statements are interleaved and whichever of them fail, no more than a bounded
number of statements can follow, and while a call has not ended another statement can. If
nothing fails any more, all the calls that have not failed yet commit, and what they saw in
the directory is in the table. -/
theorem migrate_calls_come_to_end {count size : Nat} {directory : List String}
    (hsize : (orderedSet directory).length ≤ size) {world : MigrateWorld}
    (hrun : Reaches (Restricted MigrateStep (Within count size)) MigrateWorld.start world)
    {taken : Nat} {later : MigrateWorld}
    (hlater : PendingRun (Restricted MigrateStep (Within count size))
      (MigrateWorld.Unfinished count) (fun _ _ => True) world taken later) :
    taken ≤ count * (3 * size + 3) ∧
      ∃ ended, Reaches (Restricted MigrateStep (Undisturbed count directory)) later ended ∧
        ∀ call < count,
          (ended.calls call = .failed ∧ later.calls call = .failed) ∨
            ∃ seen, ended.calls call = .committed seen ∧
              ∀ file ∈ seen, file ∈ ended.committed.migrations := by
  have hworld := MigrateWorld.Runnable.run hrun
  have hwithin : ∀ {world label}, Undisturbed count directory world label →
      Within count size world label :=
    fun hundisturbed => MigrateWorld.within_of_undisturbed hsize hundisturbed
  have hprogress := @MigrateWorld.progress_of_condition count size directory
    (Within count size) (fun hcondition => hcondition) hwithin
  have hquiet := @MigrateWorld.progress_of_condition count size directory
    (Undisturbed count directory) hwithin (fun hcondition => hcondition)
  constructor
  · have hrank := hprogress.taken_add_rank_le hworld hlater
    have hbound := MigrateWorld.rank_le_of_run hrun
    omega
  · obtain ⟨ended, hreach, _, hfinished⟩ :=
      hquiet.exists_finish (hprogress.invariant_run hworld hlater)
    refine ⟨ended, hreach, fun call hlt => ?_⟩
    have hserial := MigrateWorld.Serial.run
      ((hrun.of_restricted.trans hlater.reaches.of_restricted).trans hreach.of_restricted)
    have hended : (ended.calls call).Ended := by
      by_contra hnot
      exact hfinished ⟨call, hlt, hnot⟩
    cases hcall : ended.calls call with
    | committed seen =>
        exact .inr ⟨seen, rfl, fun file hfile => hserial.mem_of_seen hcall hfile⟩
    | failed =>
        exact .inl ⟨rfl, MigrateWorld.failed_of_undisturbed_run hreach call hcall⟩
    | _ =>
        rw [hcall] at hended
        exact hended.elim

/-- One of two calls has the lock and fails after it listed its directory. -/
theorem migrate_calls_come_to_end_waiting :
    ∃ world later : MigrateWorld, world.lock = some 1 ∧ world.calls 0 = .ready ∧
      later.calls 1 = .failed ∧ 2 ≤ 2 * (3 * 1 + 3) ∧
        ∃ ended,
          Reaches (Restricted MigrateStep (Undisturbed 2 ["1.sql"])) later ended ∧
            ∀ call < 2, (ended.calls call = .failed ∧ later.calls call = .failed) ∨
              ∃ seen, ended.calls call = .committed seen ∧
                ∀ file ∈ seen, file ∈ ended.committed.migrations := by
  let directory := ["1.sql"]
  let locked : MigrateWorld := { MigrateWorld.start.setCall 1 .locked with lock := some 1 }
  let scanning := locked.setCall 1 (.scanning directory (orderedSet directory) .empty)
  have hfiles : (orderedSet directory).length ≤ 1 := by decide
  have hlock : Restricted MigrateStep (Within 2 1) .start (1, .lock) locked :=
    ⟨.lock .start 1 rfl rfl, Nat.one_lt_two, by simp⟩
  have hlist : Restricted MigrateStep (Within 2 1) locked (1, .listDirectory directory)
      scanning := by
    refine ⟨.listDirectory locked 1 directory rfl, Nat.one_lt_two, fun listed heq => ?_⟩
    cases heq
    exact hfiles
  have hfail : Restricted MigrateStep (Within 2 1) scanning (1, .fail)
      ((scanning.setCall 1 .failed).release 1) :=
    ⟨.fail scanning 1 (.inr trivial), Nat.one_lt_two, by simp⟩
  have hwaiting : ∀ {world : MigrateWorld}, world.calls 0 = .ready → world.Unfinished 2 := by
    intro world hready
    refine ⟨0, Nat.two_pos, ?_⟩
    rw [hready]
    exact fun hended => hended
  have hlater : PendingRun (Restricted MigrateStep (Within 2 1)) (MigrateWorld.Unfinished 2)
      (fun _ _ => True) locked 2 ((scanning.setCall 1 .failed).release 1) :=
    .counted (.counted .refl (hwaiting rfl) hlist trivial) (hwaiting rfl) hfail trivial
  exact ⟨locked, _, rfl, rfl, rfl, migrate_calls_come_to_end hfiles (.single hlock) hlater⟩

end VotingSystem.Storage
