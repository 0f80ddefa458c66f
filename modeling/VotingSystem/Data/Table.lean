import Mathlib.Algebra.Group.Action.Defs
import Mathlib.Algebra.Order.BigOperators.Group.List
import Mathlib.Algebra.Order.Ring.Nat
import Mathlib.Data.Int.Order.Basic
import Mathlib.Data.List.Sort
import Mathlib.Order.Defs.LinearOrder

namespace VotingSystem.Data

/-! Tables whose primary key is drawn from a sequence. -/

section SerialRows

variable {Row Value : Type} (make : Value → Int → Row)

def serialRows : (next : Int) → List Value → List Row
  | _, [] => []
  | next, value :: values => make value next :: serialRows (next + 1) values

@[simp] theorem serialRows_length (next : Int) (values : List Value) :
    (serialRows make next values).length = values.length := by
  induction values generalizing next with
  | nil => rfl
  | cons value values ih => simp [serialRows, ih]

theorem map_serialRows {Column : Type} (column : Row → Column)
    (ofValue : Value → Column)
    (hcolumn : ∀ value next, column (make value next) = ofValue value)
    (next : Int) (values : List Value) :
    (serialRows make next values).map column = values.map ofValue := by
  induction values generalizing next with
  | nil => rfl
  | cons value values ih => simp [serialRows, ih, hcolumn]

theorem map_serialRows_congr {Column Column' : Type} (column : Row → Column)
    (ofValue : Value → Column')
    (hcolumn : ∀ value value' next, ofValue value = ofValue value' →
      column (make value next) = column (make value' next))
    (next : Int) {values values' : List Value}
    (hvalues : values.map ofValue = values'.map ofValue) :
    (serialRows make next values).map column =
      (serialRows make next values').map column := by
  induction values generalizing next values' with
  | nil =>
      rw [List.map_nil, eq_comm, List.map_eq_nil_iff] at hvalues
      rw [hvalues]
  | cons value values ih =>
      cases values' with
      | nil => simp at hvalues
      | cons value' values' =>
          rw [List.map_cons, List.map_cons, List.cons.injEq] at hvalues
          simp only [serialRows, List.map_cons]
          rw [hcolumn value value' next hvalues.1, ih (next + 1) hvalues.2]

theorem exists_of_mem_serialRows {next : Int} {values : List Value} {row : Row}
    (hrow : row ∈ serialRows make next values) :
    ∃ value ∈ values, ∃ k, next ≤ k ∧ row = make value k := by
  induction values generalizing next with
  | nil => simp [serialRows] at hrow
  | cons value values ih =>
      rcases List.mem_cons.mp hrow with rfl | htail
      · exact ⟨value, by simp, next, le_rfl, rfl⟩
      · obtain ⟨other, hother, k, hk, rfl⟩ := ih htail
        exact ⟨other, by simp [hother], k, by omega, rfl⟩

end SerialRows

class Keyed (Row : Type) where
  key : Row → Int

open Keyed (key)

/-- A table with unique keys, all of them below the next value of its
sequence. -/
structure SerialTable (Row : Type) [Keyed Row] where
  rows : List Row
  nextval : Int
  keys_nodup : (rows.map key).Nodup
  keys_lt : ∀ row ∈ rows, key row < nextval

namespace SerialTable

variable {Row : Type} [Keyed Row]

def empty : SerialTable Row where
  rows := []
  nextval := 1
  keys_nodup := .nil
  keys_lt := by simp

theorem eq_of_key_eq (table : SerialTable Row) {row row' : Row}
    (hrow : row ∈ table.rows) (hrow' : row' ∈ table.rows)
    (hkey : key row = key row') : row = row' :=
  List.inj_on_of_nodup_map table.keys_nodup hrow hrow' hkey

theorem rows_nodup (table : SerialTable Row) : table.rows.Nodup :=
  .of_map _ table.keys_nodup

theorem filter_key_length_le (table : SerialTable Row) (value : Int) :
    (table.rows.filter fun row => key row = value).length ≤ 1 := by
  have hcount := List.nodup_iff_count_le_one.mp table.keys_nodup value
  rwa [List.count, List.countP_map, List.countP_eq_length_filter] at hcount

theorem filter_key_eq_singleton (table : SerialTable Row) [DecidableEq Row]
    {row : Row} (hrow : row ∈ table.rows) :
    table.rows.filter (fun other => key other = key row) = [row] := by
  have hcongr : table.rows.filter (fun other => key other = key row) =
      table.rows.filter (· == row) := by
    apply List.filter_congr
    intro other hother
    by_cases heq : other = row
    · simp [heq]
    · have hne : key other ≠ key row := fun hkey =>
        heq (table.eq_of_key_eq hother hrow hkey)
      simp [heq, hne]
  rw [hcongr, List.filter_beq,
    List.count_eq_one_of_mem table.rows_nodup hrow, List.replicate_one]

def insert (table : SerialTable Row) (make : Int → Row)
    (hmake : ∀ next, key (make next) = next := by intro; rfl) :
    SerialTable Row where
  rows := table.rows ++ [make table.nextval]
  nextval := table.nextval + 1
  keys_nodup := by
    rw [List.map_append, List.nodup_append']
    refine ⟨table.keys_nodup, by simp, ?_⟩
    intro value hold hnew
    obtain ⟨row, hrow, rfl⟩ := List.mem_map.mp hold
    have hvalue : key row = table.nextval := by simpa [hmake] using hnew
    exact absurd (table.keys_lt row hrow) (by omega)
  keys_lt := by
    intro row hrow
    rcases List.mem_append.mp hrow with hold | hnew
    · have := table.keys_lt row hold
      omega
    · rw [List.mem_singleton.mp hnew, hmake]
      omega

@[simp] theorem insert_rows (table : SerialTable Row) (make : Int → Row)
    (hmake : ∀ next, key (make next) = next) :
    (table.insert make hmake).rows = table.rows ++ [make table.nextval] := rfl

@[simp] theorem insert_nextval (table : SerialTable Row) (make : Int → Row)
    (hmake : ∀ next, key (make next) = next) :
    (table.insert make hmake).nextval = table.nextval + 1 := rfl

def insertAll {Value : Type} (make : Value → Int → Row)
    (hmake : ∀ value next, key (make value next) = next := by intros; rfl) :
    SerialTable Row → List Value → SerialTable Row
  | table, [] => table
  | table, value :: values =>
      insertAll make hmake (table.insert (make value) (hmake value)) values

theorem insertAll_rows {Value : Type} (make : Value → Int → Row)
    (hmake : ∀ value next, key (make value next) = next)
    (table : SerialTable Row) (values : List Value) :
    (insertAll make hmake table values).rows =
      table.rows ++ serialRows make table.nextval values := by
  induction values generalizing table with
  | nil => simp [insertAll, serialRows]
  | cons value values ih => simp [insertAll, serialRows, ih]

/-- The table after insertions that were undone. A sequence does not go back. -/
def skipTo (table : SerialTable Row) (next : Int) : SerialTable Row where
  rows := table.rows
  nextval := max table.nextval next
  keys_nodup := table.keys_nodup
  keys_lt := fun row hrow => (table.keys_lt row hrow).trans_le (le_max_left _ _)

@[simp] theorem skipTo_rows (table : SerialTable Row) (next : Int) :
    (table.skipTo next).rows = table.rows := rfl

end SerialTable

/-! Ordered selections. -/

section OrderBy

variable {α : Type} (column : α → Int)

def orderBy (rows : List α) : List α :=
  rows.insertionSort fun left right => column left ≤ column right

theorem orderBy_perm (rows : List α) : (orderBy column rows).Perm rows :=
  List.perm_insertionSort _ rows

@[simp] theorem mem_orderBy {rows : List α} {row : α} :
    row ∈ orderBy column rows ↔ row ∈ rows :=
  (orderBy_perm column rows).mem_iff

@[simp] theorem orderBy_length (rows : List α) :
    (orderBy column rows).length = rows.length :=
  (orderBy_perm column rows).length_eq

theorem orderBy_pairwise_le (rows : List α) :
    (orderBy column rows).Pairwise fun left right => column left ≤ column right := by
  have : Std.Total fun left right : α => column left ≤ column right :=
    ⟨fun left right => le_total (column left) (column right)⟩
  have : IsTrans α fun left right => column left ≤ column right :=
    ⟨fun _ _ _ => le_trans⟩
  exact List.pairwise_insertionSort _ rows

theorem orderBy_pairwise_lt {rows : List α} (hnodup : (rows.map column).Nodup) :
    (orderBy column rows).Pairwise fun left right => column left < column right := by
  have hordered : ((orderBy column rows).map column).Nodup :=
    ((orderBy_perm column rows).map column).nodup_iff.mpr hnodup
  rw [List.Nodup, List.pairwise_map] at hordered
  exact ((orderBy_pairwise_le column rows).and hordered).imp fun h =>
    lt_of_le_of_ne h.1 h.2

theorem orderBy_eq_of_perm {rows ordered : List α} (hperm : ordered.Perm rows)
    (hordered : ordered.Pairwise fun left right => column left < column right) :
    orderBy column rows = ordered := by
  have hnodup : (rows.map column).Nodup := by
    rw [← (hperm.map column).nodup_iff, List.Nodup, List.pairwise_map]
    exact hordered.imp fun h => ne_of_lt h
  refine List.Perm.eq_of_pairwise ?_ (orderBy_pairwise_lt column hnodup) hordered
    ((orderBy_perm column rows).trans hperm.symm)
  intro left right _ _ hlt hgt
  exact absurd hlt (lt_asymm hgt)

theorem orderBy_filter (keep : α → Bool) {rows : List α}
    (hnodup : (rows.map column).Nodup) :
    orderBy column (rows.filter keep) = (orderBy column rows).filter keep :=
  orderBy_eq_of_perm column ((orderBy_perm column rows).filter keep)
    ((orderBy_pairwise_lt column hnodup).filter keep)

theorem orderBy_map {β : Type} (f : β → α) {rows : List β}
    (hnodup : (rows.map fun row => column (f row)).Nodup) :
    orderBy column (rows.map f) = (orderBy (fun row => column (f row)) rows).map f :=
  orderBy_eq_of_perm column ((orderBy_perm _ rows).map f)
    (List.pairwise_map.mpr (orderBy_pairwise_lt _ hnodup))

/-- Rows with the wanted values come out with these values in their order. -/
theorem map_orderBy_of_perm {rows : List α} {values : List Int}
    (hperm : (rows.map column).Perm values) (hvalues : values.Pairwise (· < ·)) :
    (orderBy column rows).map column = values := by
  have hnodup : (rows.map column).Nodup := by
    rw [hperm.nodup_iff]
    exact hvalues.imp fun h => ne_of_lt h
  have hordered := orderBy_map id column hnodup
  rw [orderBy_eq_of_perm id hperm.symm hvalues] at hordered
  exact hordered.symm

end OrderBy

/-! Joins that keep every row of the left table. -/

section LeftJoin

variable {α β : Type} (on : α → β → Bool)

def leftJoin (left : List α) (right : List β) : List (α × Option β) :=
  left.flatMap fun a =>
    match right.filter (on a) with
    | [] => [(a, none)]
    | b :: rest => (b :: rest).map fun b => (a, some b)

theorem filter_matches {a : α} (keep : α → Bool) (p : β → Bool) (found : List β) :
    (match found with
      | [] => [(a, none)]
      | b :: rest => (b :: rest).map fun b => (a, some b)).filter
        (fun row => keep row.1 && row.2.any p) =
      if keep a then (found.filter p).map fun b => (a, some b) else [] := by
  have hsome : ∀ rows : List β,
      (rows.map fun b => (a, some b)).filter (fun row => keep row.1 && row.2.any p) =
        if keep a then (rows.filter p).map fun b => (a, some b) else [] := by
    intro rows
    rw [List.filter_map]
    by_cases hkeep : keep a <;> simp [hkeep, Function.comp_def]
  cases found with
  | nil => simp
  | cons b rest => exact hsome (b :: rest)

theorem filter_leftJoin (keep : α → Bool) (p : β → Bool) (left : List α)
    (right : List β) :
    (leftJoin on left right).filter (fun row => keep row.1 && row.2.any p) =
      (left.filter keep).flatMap fun a =>
        ((right.filter (on a)).filter p).map fun b => (a, some b) := by
  induction left with
  | nil => rfl
  | cons a left ih =>
      simp only [leftJoin, List.flatMap_cons, List.filter_append, filter_matches,
        List.filter_cons] at ih ⊢
      rw [ih]
      by_cases hkeep : keep a <;> simp [hkeep]

/-- With at most one match each, the left rows of a conditional join are those
whose match meets the condition. -/
theorem map_fst_filter_leftJoin (p : β → Bool) {left : List α} {right : List β}
    (hunique : ∀ a ∈ left, (right.filter (on a)).length ≤ 1) :
    ((leftJoin on left right).filter fun row => row.2.any p).map Prod.fst =
      left.filter fun a => right.any fun b => on a b && p b := by
  have hjoin := filter_leftJoin on (fun _ => true) p left right
  simp only [Bool.true_and, List.filter_true] at hjoin
  rw [hjoin]
  clear hjoin
  induction left with
  | nil => rfl
  | cons a left ih =>
      have htail := ih fun other hother => hunique other (by simp [hother])
      have hany : (right.any fun b => on a b && p b) =
          ((right.filter (on a)).filter p).any fun _ => true := by
        simp [List.any_filter, Bool.and_comm]
      rw [List.flatMap_cons, List.map_append, htail, List.filter_cons, hany]
      have hone := (List.length_filter_le p (right.filter (on a))).trans
        (hunique a (by simp))
      match (right.filter (on a)).filter p, hone with
      | [], _ => rfl
      | [b], _ => rfl

theorem map_fst_filter_isNone_leftJoin (left : List α) (right : List β) :
    ((leftJoin on left right).filter fun row => row.2.isNone).map Prod.fst =
      left.filter fun a => !right.any (on a) := by
  induction left with
  | nil => rfl
  | cons a left ih =>
      have hany : right.any (on a) = (right.filter (on a)).any fun _ => true := by
        simp [List.any_filter]
      simp only [leftJoin, List.flatMap_cons, List.filter_append, List.map_append,
        List.filter_cons, hany] at ih ⊢
      rw [ih]
      cases right.filter (on a) with
      | nil => rfl
      | cons b rest => simp [List.filter_map, Function.comp_def]

end LeftJoin

/-! Grouping rows by a foreign key. -/

section Groups

variable {α : Type}

/-- The groups of all keys together are the rows again. -/
theorem perm_flatMap_filter {keys : List Int} (hkeys : keys.Nodup) (key : α → Int)
    {rows : List α} (hrows : ∀ row ∈ rows, key row ∈ keys) :
    (keys.flatMap fun k => rows.filter fun row => key row = k).Perm rows := by
  induction keys generalizing rows with
  | nil =>
      have hempty : rows = [] := by
        apply List.eq_nil_iff_forall_not_mem.mpr
        intro row hrow
        simpa using hrows row hrow
      rw [hempty]
      exact .refl _
  | cons k keys ih =>
      obtain ⟨hnew, hrest⟩ := List.nodup_cons.mp hkeys
      have hothers : ∀ row ∈ rows.filter (fun row => !(key row = k : Bool)),
          key row ∈ keys := by
        intro row hrow
        rw [List.mem_filter] at hrow
        rcases List.mem_cons.mp (hrows row hrow.1) with heq | hmem
        · simp [heq] at hrow
        · exact hmem
      have hsame : (keys.flatMap fun k' => rows.filter fun row => key row = k') =
          keys.flatMap fun k' => (rows.filter fun row => !(key row = k : Bool)).filter
            fun row => key row = k' := by
        apply List.flatMap_congr
        intro k' hk'
        rw [List.filter_filter]
        apply List.filter_congr
        intro row _
        by_cases heq : key row = k'
        · have hne : key row ≠ k := by
            intro hk
            exact hnew (hk ▸ heq ▸ hk')
          simp [heq, heq ▸ hne]
        · simp [heq]
      rw [List.flatMap_cons, hsame]
      exact ((ih hrest hothers).append_left _).trans (List.filter_append_perm _ rows)

theorem flatMap_filter_of_nil {β : Type} (keep : α → Bool) (column : α → List β)
    {rows : List α} (hnil : ∀ row ∈ rows, keep row = false → column row = []) :
    (rows.filter keep).flatMap column = rows.flatMap column := by
  induction rows with
  | nil => rfl
  | cons row rows ih =>
      have htail := ih fun other hother => hnil other (by simp [hother])
      cases hkeep : keep row with
      | false => simp [hkeep, htail, hnil row (by simp) hkeep]
      | true => simp [hkeep, htail]

theorem sum_map_le {value : α → Nat} {bound : Nat} {rows : List α}
    (hbound : ∀ row ∈ rows, value row ≤ bound) :
    (rows.map value).sum ≤ rows.length * bound := by
  have hsum := List.sum_le_card_nsmul (rows.map value) bound (by simpa using hbound)
  rwa [List.length_map, smul_eq_mul] at hsum

theorem sum_map_indicator (p : α → Bool) (rows : List α) :
    (rows.map fun row => if p row then 1 else 0).sum = rows.countP p := by
  induction rows with
  | nil => rfl
  | cons row rows ih =>
      rw [List.map_cons, List.sum_cons, ih, List.countP_cons]
      omega

/-- Where one row has a property, it is the one that is found. -/
theorem countP_and_of_unique {p : α → Bool} {rows : List α} (hone : rows.countP p = 1)
    (q : α → Bool) :
    (rows.countP fun row => p row && q row) = if (rows.find? p).any q then 1 else 0 := by
  induction rows with
  | nil => cases hone
  | cons row rows ih =>
      rw [List.countP_cons] at hone ⊢
      cases hp : p row with
      | false =>
          have hrest : rows.countP p = 1 := by simpa [hp] using hone
          rw [List.find?_cons_of_neg (by simp [hp])]
          simpa using ih hrest
      | true =>
          have hnone : rows.countP p = 0 := by simpa [hp] using hone
          have hzero : (rows.countP fun row => p row && q row) = 0 := by
            rw [List.countP_eq_zero] at hnone ⊢
            intro other hother hboth
            exact hnone other hother (Bool.and_eq_true_iff.mp hboth).1
          rw [hzero, List.find?_cons_of_pos hp]
          simp

/-- Rows whose key is in a list without repetitions, counted key by key. -/
theorem sum_countP_key {Key : Type} [DecidableEq Key] {keys : List Key} (hnodup : keys.Nodup)
    {key : α → Key} {p : α → Bool} {rows : List α}
    (hkeys : ∀ row ∈ rows, p row = true → key row ∈ keys) :
    (keys.map fun value => rows.countP fun row => p row && decide (key row = value)).sum =
      rows.countP p := by
  induction rows with
  | nil => simp
  | cons row rows ih =>
      have hrest := ih fun other hother => hkeys other (List.mem_cons_of_mem _ hother)
      simp only [List.countP_cons, List.sum_map_add, hrest]
      congr 1
      cases hp : p row with
      | false => simp
      | true =>
          have hone := List.count_eq_one_of_mem hnodup (hkeys row List.mem_cons_self hp)
          have hsame : ∀ value, (value == key row) = decide (key row = value) :=
            fun value => decide_eq_decide.mpr eq_comm
          rw [List.count, ← sum_map_indicator] at hone
          simp only [hsame] at hone
          simpa using hone

end Groups

end VotingSystem.Data
