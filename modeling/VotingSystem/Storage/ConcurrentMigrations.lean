import VotingSystem.Data.Transition
import VotingSystem.Storage.Migrations

namespace VotingSystem.Storage

open VotingSystem.Data

/-! Calls of `Database::migrate` from any number of processes on one database. What the
statements of a call do stays in its transaction until the commit, and each statement
sees the rows that are committed and those of its own transaction. A file is its name,
and its SQL neither ends the transaction nor touches `MIGRATIONS`. -/

/-- The rows of `MIGRATIONS` and the files whose SQL was executed. `unread` keeps the
files that could not be read: the stream is not tested, so that an empty text was
executed in their place. -/
structure Migrated where
  migrations : List String
  executed : List String
  unread : List String
  deriving DecidableEq

namespace Migrated

def empty : Migrated where
  migrations := []
  executed := []
  unread := []

def append (committed own : Migrated) : Migrated where
  migrations := committed.migrations ++ own.migrations
  executed := committed.executed ++ own.executed
  unread := committed.unread ++ own.unread

def execute (own : Migrated) (file : String) (readable : Bool) : Migrated :=
  if readable then { own with executed := own.executed ++ [file] }
  else { own with unread := own.unread ++ [file] }

def insert (own : Migrated) (file : String) : Migrated :=
  { own with migrations := own.migrations ++ [file] }

end Migrated

/-- Where a call is. `seen` is its directory, `files` are the files it has yet to come
to and `own` is what its transaction did. -/
inductive MigrateCall
  | ready
  | locked
  | scanning (seen files : List String) (own : Migrated)
  | selected (seen : List String) (file : String) (files : List String) (own : Migrated)
  | executed (seen : List String) (file : String) (files : List String) (own : Migrated)
  | committed (seen : List String)
  | failed
  deriving DecidableEq

namespace MigrateCall

/-- The call is past its `LOCK` and its transaction has not ended. -/
def HoldsLock : MigrateCall → Prop
  | ready => False
  | locked => True
  | scanning _ _ _ => True
  | selected _ _ _ _ => True
  | executed _ _ _ _ => True
  | committed _ => False
  | failed => False

end MigrateCall

structure MigrateWorld where
  committed : Migrated
  lock : Option Nat
  calls : Nat → MigrateCall

namespace MigrateWorld

def start : MigrateWorld where
  committed := .empty
  lock := none
  calls := fun _ => .ready

def setCall (world : MigrateWorld) (call : Nat) (next : MigrateCall) : MigrateWorld :=
  { world with calls := Function.update world.calls call next }

theorem setCall_calls {p : Nat → MigrateCall → Prop} {world : MigrateWorld} {call : Nat}
    {next : MigrateCall} (hnext : p call next)
    (hothers : ∀ other ≠ call, p other (world.calls other)) (other : Nat) :
    p other ((world.setCall call next).calls other) := by
  by_cases hsame : other = call
  · subst hsame
    simp only [setCall, Function.update_self]
    exact hnext
  · simp only [setCall, Function.update_of_ne hsame]
    exact hothers other hsame

/-- The end of a transaction. -/
def release (world : MigrateWorld) (call : Nat) : MigrateWorld :=
  { world with lock := if world.lock = some call then none else world.lock }

end MigrateWorld

inductive MigrateStatement
  | lock
  | listDirectory (directory : List String)
  | select
  | execute (readable : Bool)
  | insert
  | commit
  | fail
  deriving DecidableEq

/-- The next statement of a call. The lock is granted when no transaction holds it, and
`INSERT` respects the primary key. -/
inductive MigrateStep : MigrateWorld → Nat × MigrateStatement → MigrateWorld → Prop
  | lock (world : MigrateWorld) (call : Nat)
      (hcall : world.calls call = .ready) (hfree : world.lock = none) :
      MigrateStep world (call, .lock) { world.setCall call .locked with lock := some call }
  | listDirectory (world : MigrateWorld) (call : Nat) (directory : List String)
      (hcall : world.calls call = .locked) :
      MigrateStep world (call, .listDirectory directory)
        (world.setCall call (.scanning directory (orderedSet directory) .empty))
  | skip (world : MigrateWorld) (call : Nat) (seen : List String) (file : String)
      (files : List String) (own : Migrated)
      (hcall : world.calls call = .scanning seen (file :: files) own)
      (hfound : file ∈ (world.committed.append own).migrations) :
      MigrateStep world (call, .select) (world.setCall call (.scanning seen files own))
  | select (world : MigrateWorld) (call : Nat) (seen : List String) (file : String)
      (files : List String) (own : Migrated)
      (hcall : world.calls call = .scanning seen (file :: files) own)
      (hnew : file ∉ (world.committed.append own).migrations) :
      MigrateStep world (call, .select) (world.setCall call (.selected seen file files own))
  | execute (world : MigrateWorld) (call : Nat) (seen : List String) (file : String)
      (files : List String) (own : Migrated) (readable : Bool)
      (hcall : world.calls call = .selected seen file files own) :
      MigrateStep world (call, .execute readable)
        (world.setCall call (.executed seen file files (own.execute file readable)))
  | insert (world : MigrateWorld) (call : Nat) (seen : List String) (file : String)
      (files : List String) (own : Migrated)
      (hcall : world.calls call = .executed seen file files own)
      (hkey : file ∉ (world.committed.append own).migrations) :
      MigrateStep world (call, .insert)
        (world.setCall call (.scanning seen files (own.insert file)))
  | commit (world : MigrateWorld) (call : Nat) (seen : List String) (own : Migrated)
      (hcall : world.calls call = .scanning seen [] own) :
      MigrateStep world (call, .commit)
        { (world.setCall call (.committed seen)).release call with
          committed := world.committed.append own }
  | fail (world : MigrateWorld) (call : Nat)
      (hcall : world.calls call = .ready ∨ (world.calls call).HoldsLock) :
      MigrateStep world (call, .fail) ((world.setCall call .failed).release call)

@[simp] theorem Migrated.execute_migrations (own : Migrated) (file : String)
    (readable : Bool) : (own.execute file readable).migrations = own.migrations := by
  cases readable with
  | true => rfl
  | false => rfl

theorem Migrated.perm_execute {own : Migrated}
    (hown : own.migrations.Perm (own.executed ++ own.unread)) (file : String)
    (readable : Bool) :
    (own.migrations ++ [file]).Perm
      ((own.execute file readable).executed ++ (own.execute file readable).unread) := by
  cases readable with
  | true =>
      calc
        (own.migrations ++ [file]).Perm ((own.executed ++ own.unread) ++ [file]) :=
          hown.append_right [file]
        _ = own.executed ++ (own.unread ++ [file]) := List.append_assoc _ _ _
        List.Perm _ (own.executed ++ ([file] ++ own.unread)) :=
          List.perm_append_comm.append_left own.executed
        _ = (own.executed ++ [file]) ++ own.unread := (List.append_assoc _ _ _).symm
  | false =>
      have hperm := hown.append_right [file]
      rwa [List.append_assoc] at hperm

theorem Migrated.perm_append {committed own : Migrated}
    (hcommitted : committed.migrations.Perm (committed.executed ++ committed.unread))
    (hown : own.migrations.Perm (own.executed ++ own.unread)) :
    (committed.append own).migrations.Perm
      ((committed.append own).executed ++ (committed.append own).unread) := by
  calc
    (committed.migrations ++ own.migrations).Perm
        ((committed.executed ++ committed.unread) ++ (own.executed ++ own.unread)) :=
      hcommitted.append hown
    List.Perm _ ((committed.executed ++ own.executed) ++ (committed.unread ++ own.unread)) := by
      simp only [List.append_assoc]
      apply List.Perm.append_left
      simp only [← List.append_assoc]
      exact List.perm_append_comm.append_right own.unread

/-! What a call has yet to do brings the table to where `migrate` alone would bring it,
from what was committed when the call took the lock. -/

def MigrateCall.Agrees (committed : Migrated) : MigrateCall → Prop
  | ready => True
  | locked => True
  | scanning seen files own =>
      own.migrations.Perm (own.executed ++ own.unread) ∧
        files.foldl runMigration (committed.append own).migrations =
          migrate committed.migrations seen
  | selected seen file files own =>
      own.migrations.Perm (own.executed ++ own.unread) ∧
        files.foldl runMigration ((committed.append own).migrations ++ [file]) =
          migrate committed.migrations seen
  | executed seen file files own =>
      (own.migrations ++ [file]).Perm (own.executed ++ own.unread) ∧
        files.foldl runMigration ((committed.append own).migrations ++ [file]) =
          migrate committed.migrations seen
  | .committed _ => True
  | failed => True

theorem MigrateCall.Agrees.of_not_holdsLock {call : MigrateCall}
    (hfree : ¬ call.HoldsLock) (committed : Migrated) : call.Agrees committed := by
  cases call with
  | ready => trivial
  | locked => trivial
  | scanning seen files own => exact absurd trivial hfree
  | selected seen file files own => exact absurd trivial hfree
  | executed seen file files own => exact absurd trivial hfree
  | committed seen => trivial
  | failed => trivial

/-- Only the holder of the lock is past its `LOCK`, and the table is that of calls one
after another, all committed ones among them. -/
structure MigrateWorld.Serial (world : MigrateWorld) : Prop where
  perm : world.committed.migrations.Perm (world.committed.executed ++ world.committed.unread)
  holder : ∀ call, (world.calls call).HoldsLock → world.lock = some call
  agrees : ∀ call, (world.calls call).Agrees world.committed
  directories : ∃ directories : List (List String),
    world.committed.migrations = directories.foldl migrate [] ∧
      ∀ call seen, world.calls call = .committed seen → seen ∈ directories

namespace MigrateWorld.Serial

variable {world : MigrateWorld} {call : Nat} {next : MigrateCall}

theorem start : MigrateWorld.start.Serial := by
  refine ⟨.nil, ?_, ?_, [], rfl, ?_⟩
  · intro call hholds
    exact hholds.elim
  · intro call
    trivial
  · intro call seen hcall
    cases hcall

/-- A call that goes on without a commit, with the lock as it leaves it. -/
theorem goOn (hworld : world.Serial) {lock : Option Nat}
    (hnext : next.Agrees world.committed) (hholds : next.HoldsLock → lock = some call)
    (hothers : ∀ other ≠ call, (world.calls other).HoldsLock → lock = some other)
    (hcommitted : ∀ seen, next ≠ .committed seen) :
    { world.setCall call next with lock := lock }.Serial := by
  obtain ⟨directories, hmigrations, hseen⟩ := hworld.directories
  refine ⟨hworld.perm, ?_, ?_, directories, hmigrations, ?_⟩
  · exact setCall_calls (p := fun other made => made.HoldsLock → lock = some other)
      hholds hothers
  · exact setCall_calls (p := fun _ made => made.Agrees world.committed)
      hnext fun other _ => hworld.agrees other
  · exact setCall_calls (p := fun _ made => ∀ seen, made = .committed seen →
        seen ∈ directories)
      (fun seen heq => absurd heq (hcommitted seen)) fun other _ => hseen other

/-- The holder of the lock goes on. -/
theorem work (hworld : world.Serial) (hholder : (world.calls call).HoldsLock)
    (hnext : next.Agrees world.committed) (hcommitted : ∀ seen, next ≠ .committed seen) :
    (world.setCall call next).Serial :=
  hworld.goOn hnext (fun _ => hworld.holder call hholder)
    (fun other _ hother => hworld.holder other hother) hcommitted

theorem released (hworld : world.Serial) {other : Nat} (hne : other ≠ call)
    (hother : (world.calls other).HoldsLock) :
    (if world.lock = some call then none else world.lock) = some other := by
  have hlock := hworld.holder other hother
  rw [hlock, if_neg]
  simpa using hne

theorem commit (hworld : world.Serial) {seen : List String} {own : Migrated}
    (hcall : world.calls call = .scanning seen [] own) :
    { (world.setCall call (.committed seen)).release call with
      committed := world.committed.append own }.Serial := by
  have hholds : (world.calls call).HoldsLock := by
    rw [hcall]
    trivial
  have hlock := hworld.holder call hholds
  have hagrees := hworld.agrees call
  rw [hcall] at hagrees
  obtain ⟨hown, hmigrate⟩ := hagrees
  have hothers : ∀ other ≠ call, ¬ (world.calls other).HoldsLock := by
    intro other hne hother
    have hboth := hworld.holder other hother
    rw [hlock, Option.some.injEq] at hboth
    exact hne hboth.symm
  obtain ⟨directories, hmigrations, hseen⟩ := hworld.directories
  refine ⟨Migrated.perm_append hworld.perm hown, ?_, ?_, directories ++ [seen], ?_, ?_⟩
  · -- nobody is past the lock when it is let go
    exact setCall_calls (p := fun other made => made.HoldsLock →
        (if world.lock = some call then none else world.lock) = some other)
      False.elim fun other hne hother => absurd hother (hothers other hne)
  · exact setCall_calls (p := fun _ made => made.Agrees (world.committed.append own))
      trivial fun other hne => .of_not_holdsLock (hothers other hne) _
  · rw [List.foldl_append, List.foldl_cons, List.foldl_nil, ← hmigrations, ← hmigrate]
    rfl
  · apply setCall_calls (p := fun _ made => ∀ seen', made = .committed seen' →
        seen' ∈ directories ++ [seen])
    · intro seen' heq
      cases heq
      simp
    · intro other _ seen' hother
      exact List.mem_append_left _ (hseen other seen' hother)

theorem step (hworld : world.Serial) {label : Nat × MigrateStatement} {world' : MigrateWorld}
    (hstep : MigrateStep world label world') : world'.Serial := by
  cases hstep with
  | lock call hcall hfree =>
      have hlocked : MigrateCall.locked.Agrees world.committed := trivial
      apply hworld.goOn hlocked (fun _ => rfl) _ (by simp)
      intro other _ hother
      have hlock := hworld.holder other hother
      rw [hfree] at hlock
      cases hlock
  | listDirectory call directory hcall =>
      have hscanning : (MigrateCall.scanning directory (orderedSet directory) .empty).Agrees
          world.committed := by
        refine ⟨.nil, ?_⟩
        simp only [Migrated.append, Migrated.empty, List.append_nil]
        rfl
      exact hworld.work (by rw [hcall]; trivial) hscanning (by simp)
  | skip call seen file files own hcall hfound =>
      have hagrees := hworld.agrees call
      rw [hcall] at hagrees
      obtain ⟨hown, hmigrate⟩ := hagrees
      rw [List.foldl_cons, runMigration, if_pos hfound] at hmigrate
      exact hworld.work (by rw [hcall]; trivial) ⟨hown, hmigrate⟩ (by simp)
  | select call seen file files own hcall hnew =>
      have hagrees := hworld.agrees call
      rw [hcall] at hagrees
      obtain ⟨hown, hmigrate⟩ := hagrees
      rw [List.foldl_cons, runMigration, if_neg hnew] at hmigrate
      exact hworld.work (by rw [hcall]; trivial) ⟨hown, hmigrate⟩ (by simp)
  | execute call seen file files own readable hcall =>
      have hagrees := hworld.agrees call
      rw [hcall] at hagrees
      obtain ⟨hown, hmigrate⟩ := hagrees
      have hexecuted : (MigrateCall.executed seen file files (own.execute file readable)).Agrees
          world.committed := by
        refine ⟨?_, ?_⟩
        · rw [Migrated.execute_migrations]
          exact Migrated.perm_execute hown file readable
        · rw [Migrated.append, Migrated.execute_migrations]
          exact hmigrate
      exact hworld.work (by rw [hcall]; trivial) hexecuted (by simp)
  | insert call seen file files own hcall hkey =>
      have hagrees := hworld.agrees call
      rw [hcall] at hagrees
      obtain ⟨hown, hmigrate⟩ := hagrees
      have hscanning : (MigrateCall.scanning seen files (own.insert file)).Agrees
          world.committed := by
        refine ⟨hown, ?_⟩
        rw [← hmigrate, Migrated.append, Migrated.append, Migrated.insert, List.append_assoc]
      exact hworld.work (by rw [hcall]; trivial) hscanning (by simp)
  | commit call seen own hcall => exact hworld.commit hcall
  | fail call hcall =>
      have hfailed : MigrateCall.failed.Agrees world.committed := trivial
      exact hworld.goOn hfailed False.elim
        (fun other hne hother => hworld.released hne hother) (by simp)

theorem run (hrun : Reaches MigrateStep MigrateWorld.start world) : world.Serial := by
  apply hrun.invariant start
  intro source label target hsource hstep
  exact hsource.step hstep

end MigrateWorld.Serial

/-- Every migration took effect once, and the table says so. -/
structure MigrateWorld.ExactlyOnce (world : MigrateWorld) : Prop where
  recorded : ∀ file, file ∈ world.committed.migrations ↔ file ∈ world.committed.executed
  atMostOnce : ∀ file, world.committed.executed.count file ≤ 1
  seen : ∀ call seen, world.calls call = .committed seen →
    ∀ file ∈ seen, world.committed.executed.count file = 1

theorem MigrateWorld.Serial.nodup {world : MigrateWorld} (hworld : world.Serial) :
    world.committed.migrations.Nodup := by
  obtain ⟨directories, hmigrations, _⟩ := hworld.directories
  rw [hmigrations]
  exact addBatches_nodup List.nodup_nil directories

/-- What a committed call saw is in the table. -/
theorem MigrateWorld.Serial.mem_of_seen {world : MigrateWorld} (hworld : world.Serial)
    {call : Nat} {seen : List String} (hcall : world.calls call = .committed seen)
    {file : String} (hfile : file ∈ seen) : file ∈ world.committed.migrations := by
  obtain ⟨directories, hmigrations, hseen⟩ := hworld.directories
  have hmem : file ∈ addBatches [] directories :=
    mem_addBatches.mpr (.inr ⟨seen, hseen call seen hcall, hfile⟩)
  rw [hmigrations]
  exact hmem

theorem MigrateWorld.Serial.exactlyOnce_iff {world : MigrateWorld} (hworld : world.Serial) :
    world.ExactlyOnce ↔ world.committed.unread = [] := by
  have hnodup := hworld.nodup
  have hperm := hworld.perm
  constructor
  · intro honce
    rw [hperm.nodup_iff, List.nodup_append] at hnodup
    rw [List.eq_nil_iff_forall_not_mem]
    intro file hunread
    have hmigrations : file ∈ world.committed.migrations :=
      hperm.mem_iff.mpr (List.mem_append_right _ hunread)
    have hexecuted := (honce.recorded file).mp hmigrations
    exact hnodup.2.2 file hexecuted file hunread rfl
  · intro hunread
    rw [hunread, List.append_nil] at hperm
    have hexecuted : world.committed.executed.Nodup := hperm.nodup_iff.mp hnodup
    refine ⟨fun file => hperm.mem_iff, List.nodup_iff_count_le_one.mp hexecuted, ?_⟩
    intro call seen hcall file hfile
    have hmem := hperm.mem_iff.mp (hworld.mem_of_seen hcall hfile)
    exact List.count_eq_one_of_mem hexecuted hmem

/-- In every interleaving, with any failures, the migrations took effect exactly once
if and only if no call that committed executed a file that it could not read. -/
theorem migrations_exactlyOnce_iff {world : MigrateWorld}
    (hrun : Reaches MigrateStep MigrateWorld.start world) :
    world.ExactlyOnce ↔ world.committed.unread = [] :=
  (MigrateWorld.Serial.run hrun).exactlyOnce_iff

/-- A call fails after it executed a file, and another one comes to its end. -/
theorem exists_migrated (readable : Bool) :
    ∃ world, Reaches MigrateStep MigrateWorld.start world ∧ world.calls 1 = .failed ∧
      world.calls 0 = .committed ["1.sql"] ∧
      world.committed = (Migrated.empty.execute "1.sql" readable).insert "1.sql" := by
  have hfiles : orderedSet ["1.sql"] = ["1.sql"] := by decide
  have hlock := Reaches.single (MigrateStep.lock .start 1 rfl rfl)
  have hlist := hlock.tail (.listDirectory _ 1 ["1.sql"] rfl)
  rw [hfiles] at hlist
  have hselect := hlist.tail (.select _ 1 _ "1.sql" [] .empty rfl (by decide))
  have hexecute := hselect.tail (.execute _ 1 _ "1.sql" [] .empty true rfl)
  have hfail := hexecute.tail (.fail _ 1 (.inr trivial))
  have hlock := hfail.tail (.lock _ 0 rfl rfl)
  have hlist := hlock.tail (.listDirectory _ 0 ["1.sql"] rfl)
  rw [hfiles] at hlist
  have hselect := hlist.tail (.select _ 0 _ "1.sql" [] .empty rfl (by decide))
  have hexecute := hselect.tail (.execute _ 0 _ "1.sql" [] .empty readable rfl)
  have hinsert := hexecute.tail (.insert _ 0 _ "1.sql" [] _ rfl (by cases readable <;> decide))
  have hcommit := hinsert.tail (.commit _ 0 _ _ rfl)
  refine ⟨_, hcommit, rfl, rfl, ?_⟩
  cases readable with
  | true => rfl
  | false => rfl

theorem migrations_exactlyOnce_iff_two_calls :
    ∃ world, Reaches MigrateStep MigrateWorld.start world ∧ world.calls 1 = .failed ∧
      world.committed.executed = ["1.sql"] ∧ world.ExactlyOnce := by
  obtain ⟨world, hrun, hfailed, _, hcommitted⟩ := exists_migrated true
  refine ⟨world, hrun, hfailed, by rw [hcommitted]; rfl, ?_⟩
  rw [migrations_exactlyOnce_iff hrun, hcommitted]
  rfl

/-- A file that could not be read is in the table for good. -/
theorem unreadable_migration_recorded :
    ∃ world, Reaches MigrateStep MigrateWorld.start world ∧
      world.calls 0 = .committed ["1.sql"] ∧ world.committed.migrations = ["1.sql"] ∧
      world.committed.executed = [] ∧ ¬ world.ExactlyOnce := by
  obtain ⟨world, hrun, _, hcall, hcommitted⟩ := exists_migrated false
  refine ⟨world, hrun, hcall, by rw [hcommitted]; rfl, by rw [hcommitted]; rfl, ?_⟩
  intro honce
  have hcount := honce.seen 0 _ hcall "1.sql" (by simp)
  rw [hcommitted] at hcount
  exact absurd hcount (by decide)

end VotingSystem.Storage
