import Mathlib
import VotingSystem.Data.Batches

namespace VotingSystem.Storage

open VotingSystem.Data

/-! `Database::migrate`. The state is the table `MIGRATIONS` as the names of its rows
in the order of their insertion: a file is executed right before its row is
inserted, so these are also the executed files. All files lie in one directory, and
the order of their paths is that of their names. -/

/-- Executes a file, unless its name is in the table. -/
def runMigration (migrations : List String) (file : String) : List String :=
  if file ∈ migrations then migrations else migrations ++ [file]

def migrate (migrations directory : List String) : List String :=
  (orderedSet directory).foldl runMigration migrations

theorem migrate_eq (migrations directory : List String) :
    migrate migrations directory = addBatch migrations directory := rfl

/-- The order in which the directory is listed does not matter. -/
theorem migrate_congr (migrations : List String) {directory directory' : List String}
    (hsame : ∀ file, file ∈ directory ↔ file ∈ directory') :
    migrate migrations directory = migrate migrations directory' := by
  rw [migrate, migrate, orderedSet_congr hsame]

/-! A directory that grows in numeric order. -/

def migrationName (number : Nat) : String := toString number ++ ".sql"

def numbered (count : Nat) : List String := (List.range' 1 count).map migrationName

/-- A database that is migrated when the directory has as many files as each number
says, and at last when it has them all. -/
def upgraded (count : Nat) (sizes : List Nat) : List String :=
  (sizes ++ [count]).foldl (fun migrations size => migrate migrations (numbered size)) []

def fresh (count : Nat) : List String := migrate [] (numbered count)

theorem migrationName_inj {number other : Nat} :
    migrationName number = migrationName other ↔ number = other := by
  rw [migrationName, migrationName, String.append_left_inj]
  exact Nat.repr_inj

theorem mem_numbered {count : Nat} {file : String} :
    file ∈ numbered count ↔ ∃ number, 1 ≤ number ∧ number ≤ count ∧
      migrationName number = file := by
  simp only [numbered, List.mem_map, List.mem_range'_1]
  constructor
  · rintro ⟨number, ⟨hpos, hlt⟩, rfl⟩
    exact ⟨number, hpos, by omega, rfl⟩
  · rintro ⟨number, hpos, hle, rfl⟩
    exact ⟨number, ⟨hpos, by omega⟩, rfl⟩

theorem migrationName_mem_numbered {count number : Nat} :
    migrationName number ∈ numbered count ↔ 1 ≤ number ∧ number ≤ count := by
  rw [mem_numbered]
  constructor
  · rintro ⟨other, hpos, hle, heq⟩
    rw [migrationName_inj] at heq
    omega
  · rintro ⟨hpos, hle⟩
    exact ⟨number, hpos, hle, rfl⟩

theorem numbered_subset {size count : Nat} (hle : size ≤ count) :
    numbered size ⊆ numbered count := by
  intro file hfile
  obtain ⟨number, hpos, hsize, rfl⟩ := mem_numbered.mp hfile
  exact migrationName_mem_numbered.mpr ⟨hpos, hsize.trans hle⟩

theorem above_numbered_iff {size count : Nat} :
    Above (numbered size) (numbered count) ↔
      ∀ number later, 1 ≤ number → number ≤ size → size < later → later ≤ count →
        migrationName number < migrationName later := by
  constructor
  · intro habove number later hpos hsize hlater hcount
    apply habove _ (migrationName_mem_numbered.mpr ⟨hpos, hsize⟩) _
      (migrationName_mem_numbered.mpr ⟨by omega, hcount⟩)
    rw [migrationName_mem_numbered]
    omega
  · intro hnames file hfile other hother hnew
    obtain ⟨number, hpos, hsize, rfl⟩ := mem_numbered.mp hfile
    obtain ⟨later, hlaterPos, hcount, rfl⟩ := mem_numbered.mp hother
    rw [migrationName_mem_numbered] at hnew
    exact hnames number later hpos hsize (by omega) hcount

theorem upgraded_eq (count : Nat) (sizes : List Nat) :
    upgraded count sizes = addBatches [] (sizes.map numbered ++ [numbered count]) := by
  rw [upgraded, addBatches, ← List.map_singleton, ← List.map_append, List.foldl_map]
  rfl

/-- The upgraded database has executed the files in the order of a fresh one exactly
when, at every call, the files present sort before all that come later. -/
theorem upgraded_eq_iff_above {count : Nat} {sizes : List Nat}
    (hgrow : (sizes ++ [count]).Pairwise (· ≤ ·)) :
    upgraded count sizes = fresh count ↔
      ∀ size ∈ sizes, ∀ number later, 1 ≤ number → number ≤ size → size < later →
        later ≤ count → migrationName number < migrationName later := by
  have hbatches : (sizes.map numbered ++ [numbered count]).Pairwise (· ⊆ ·) := by
    rw [← List.map_singleton, ← List.map_append, List.pairwise_map]
    exact hgrow.imp fun hle => numbered_subset hle
  rw [upgraded_eq, fresh, migrate_eq, addBatches_eq_iff hbatches]
  simp only [List.forall_mem_map, above_numbered_iff]

theorem migrationName_lt {number later : Nat} (hpos : 1 ≤ number) (hlt : number < later)
    (hlater : later ≤ 9) : migrationName number < migrationName later := by
  have hall : ∀ later < 10, ∀ number < later, 1 ≤ number →
      migrationName number < migrationName later := by decide
  exact hall later (by omega) number hlt hpos

/-- The tenth file sorts before the second. -/
theorem upgraded_nine_ne {count : Nat} (hcount : 10 ≤ count) :
    upgraded count [9] ≠ fresh count := by
  intro heq
  have hgrow : ([9] ++ [count]).Pairwise (· ≤ ·) := by
    simp only [List.singleton_append, List.pairwise_pair]
    omega
  have hnames := (upgraded_eq_iff_above hgrow).mp heq 9 (by simp) 2 10 (by omega) (by omega)
    (by omega) hcount
  exact absurd hnames (by decide)

/-- Each schedule agrees with a fresh database under the condition on names, and all
schedules do exactly when there are at most nine files. -/
theorem upgraded_eq_fresh_iff (count : Nat) :
    (∀ sizes : List Nat, (sizes ++ [count]).Pairwise (· ≤ ·) →
      (upgraded count sizes = fresh count ↔
        ∀ size ∈ sizes, ∀ number later, 1 ≤ number → number ≤ size → size < later →
          later ≤ count → migrationName number < migrationName later)) ∧
    ((∀ sizes : List Nat, (sizes ++ [count]).Pairwise (· ≤ ·) →
        upgraded count sizes = fresh count) ↔
      count ≤ 9) := by
  refine ⟨fun sizes hgrow => upgraded_eq_iff_above hgrow, ?_⟩
  constructor
  · intro hall
    by_contra hmany
    apply @upgraded_nine_ne count (by omega)
    apply hall
    simp only [List.singleton_append, List.pairwise_pair]
    omega
  · intro hfew sizes hgrow
    rw [upgraded_eq_iff_above hgrow]
    intro size _ number later hpos hsize hlater hcount
    exact migrationName_lt hpos (by omega) (hcount.trans hfew)

theorem upgraded_eq_fresh_iff_two :
    (upgraded 2 [1] = fresh 2 ↔
      ∀ size ∈ [1], ∀ number later, 1 ≤ number → number ≤ size → size < later →
        later ≤ 2 → migrationName number < migrationName later) ∧
    upgraded 9 [1, 4] = fresh 9 :=
  ⟨(upgraded_eq_fresh_iff 2).1 [1] (by simp),
    (upgraded_eq_fresh_iff 9).2.mpr (by omega) [1, 4] (by simp)⟩

theorem tenth_migration_out_of_order :
    upgraded 10 [9] = ["1.sql", "2.sql", "3.sql", "4.sql", "5.sql", "6.sql", "7.sql",
        "8.sql", "9.sql", "10.sql"] ∧
      fresh 10 = ["1.sql", "10.sql", "2.sql", "3.sql", "4.sql", "5.sql", "6.sql", "7.sql",
        "8.sql", "9.sql"] ∧
      upgraded 10 [9] ≠ fresh 10 := by
  decide

end VotingSystem.Storage
