import Mathlib.Algebra.BigOperators.Group.Finset.Basic
import Mathlib.Algebra.Order.BigOperators.Group.List
import Mathlib.Algebra.Order.Ring.Nat
import Mathlib.Data.List.Nodup
import Mathlib.Data.List.ReduceOption

namespace VotingSystem.Data

/-! Places that hold a value or are empty, and numbers that are given out in order. -/

section Slots

variable {α β : Type} {slots : List (Option α)} {index : Nat} {value : α}

/-- A value that is replaced by one with the same image. -/
theorem map_reduceOption_set {f : α → β} {value' : α}
    (hslot : slots[index]? = some (some value)) (hf : f value' = f value) :
    (slots.set index (some value')).reduceOption.map f = slots.reduceOption.map f := by
  induction slots generalizing index with
  | nil => cases hslot
  | cons slot slots ih =>
      cases index with
      | zero =>
          cases hslot
          simp only [List.set_cons_zero, List.reduceOption_cons_of_some, List.map_cons, hf]
      | succ index =>
          have hrest := ih hslot
          cases slot with
          | none => simpa only [List.set_cons_succ, List.reduceOption_cons_of_none] using hrest
          | some first =>
              simp only [List.set_cons_succ, List.reduceOption_cons_of_some, List.map_cons,
                hrest]

theorem map_isSome_set (hslot : slots[index]? = some (some value)) (value' : α) :
    (slots.set index (some value')).map Option.isSome = slots.map Option.isSome := by
  induction slots generalizing index with
  | nil => rfl
  | cons slot slots ih =>
      cases index with
      | zero =>
          cases hslot
          rfl
      | succ index => rw [List.set_cons_succ, List.map_cons, List.map_cons, ih hslot]

/-- A sum over places, one of which gets another content. -/
theorem sum_map_set {Slot : Type} (f : Slot → Nat) {slots : List Slot} {index : Nat}
    {slot : Slot} (hslot : slots[index]? = some slot) (slot' : Slot) :
    ((slots.set index slot').map f).sum + f slot = (slots.map f).sum + f slot' := by
  induction slots generalizing index with
  | nil => cases hslot
  | cons first slots ih =>
      cases index with
      | zero =>
          cases hslot
          simp only [List.set_cons_zero, List.map_cons, List.sum_cons]
          omega
      | succ index =>
          have hrest := ih hslot
          simp only [List.set_cons_succ, List.map_cons, List.sum_cons]
          omega

theorem sum_update {Index Slot : Type} [DecidableEq Index] (f : Slot → Nat)
    (slots : Index → Slot) {places : Finset Index} {index : Index} (hindex : index ∈ places)
    (slot : Slot) :
    ∑ place ∈ places, f (Function.update slots index slot place) + f (slots index) =
      ∑ place ∈ places, f (slots place) + f slot := by
  have hothers : ∑ place ∈ places.erase index, f (Function.update slots index slot place) =
      ∑ place ∈ places.erase index, f (slots place) := by
    apply Finset.sum_congr rfl
    intro place hplace
    rw [Function.update_of_ne (Finset.ne_of_mem_erase hplace)]
  rw [← Finset.sum_erase_add places _ hindex, ← Finset.sum_erase_add places _ hindex, hothers,
    Function.update_self]
  omega

theorem sum_update_of_notMem {Index Slot : Type} [DecidableEq Index] (f : Slot → Nat)
    (slots : Index → Slot) {places : Finset Index} {index : Index} (hindex : index ∉ places)
    (slot : Slot) :
    ∑ place ∈ places, f (Function.update slots index slot place) =
      ∑ place ∈ places, f (slots place) := by
  apply Finset.sum_congr rfl
  intro place hplace
  have hne : place ≠ index := by
    rintro rfl
    exact hindex hplace
  rw [Function.update_of_ne hne]

/-- A value that is taken out of its place. -/
theorem reduceOption_perm_set (hslot : slots[index]? = some (some value)) :
    slots.reduceOption.Perm (value :: (slots.set index none).reduceOption) := by
  induction slots generalizing index with
  | nil => cases hslot
  | cons slot slots ih =>
      cases index with
      | zero =>
          cases hslot
          rfl
      | succ index =>
          cases slot with
          | none => exact ih hslot
          | some first =>
              simp only [List.set_cons_succ, List.reduceOption_cons_of_some]
              exact ((ih hslot).cons first).trans (.swap value first _)

/-- The first place that still holds a value, when they are emptied in order. -/
theorem exists_some_of_isSome {count : Nat} (hindex : index < count)
    (hslots : slots.map Option.isSome =
      List.replicate index false ++ List.replicate (count - index) true) :
    ∃ value, slots[index]? = some (some value) := by
  have hsome : (slots.map Option.isSome)[index]? = some true := by
    rw [hslots, List.getElem?_append_right (by simp), List.length_replicate, Nat.sub_self,
      List.getElem?_replicate, if_pos (by omega)]
  rw [List.getElem?_map, Option.map_eq_some_iff] at hsome
  obtain ⟨slot, hslot, hisSome⟩ := hsome
  obtain ⟨value, rfl⟩ := Option.isSome_iff_exists.mp hisSome
  exact ⟨value, hslot⟩

theorem map_isSome_set_none {count : Nat} (hindex : index < count)
    (hslots : slots.map Option.isSome =
      List.replicate index false ++ List.replicate (count - index) true) :
    (slots.set index none).map Option.isSome =
      List.replicate (index + 1) false ++ List.replicate (count - (index + 1)) true := by
  obtain ⟨rest, hrest⟩ : ∃ rest, count - index = rest + 1 := ⟨count - index - 1, by omega⟩
  have hsub : count - (index + 1) = rest := by omega
  rw [List.map_set, hslots, hrest, hsub, List.replicate_succ,
    List.set_append_right _ _ (by simp), List.length_replicate, Nat.sub_self,
    List.set_cons_zero, Option.isSome_none, List.replicate_succ', List.append_assoc,
    List.singleton_append]

theorem reduceOption_eq_nil {count : Nat}
    (hslots : slots.map Option.isSome = List.replicate count false) :
    slots.reduceOption = [] := by
  rw [List.eq_nil_iff_forall_not_mem]
  intro value hvalue
  rw [List.reduceOption_mem_iff] at hvalue
  have htrue : true ∈ slots.map Option.isSome := List.mem_map.mpr ⟨some value, hvalue, rfl⟩
  rw [hslots] at htrue
  cases List.eq_of_mem_replicate htrue

end Slots

section Numbers

variable {done current current' : List Nat} {count : Nat}

/-- The next number is given out. -/
theorem perm_range_succ (hcurrent : current'.Perm (count :: current))
    (hperm : (done ++ current).Perm (List.range count)) :
    (done ++ current').Perm (List.range (count + 1)) := by
  calc
    (done ++ current').Perm (done ++ count :: current) := hcurrent.append_left done
    List.Perm _ (count :: (done ++ current)) := List.perm_middle
    List.Perm _ (count :: List.range count) := hperm.cons count
    List.Perm _ (List.range count ++ [count]) := (List.perm_append_singleton _ _).symm
    _ = List.range (count + 1) := List.range_succ.symm

/-- A number is done. -/
theorem perm_range_done {number : Nat} (hcurrent : current.Perm (number :: current'))
    (hperm : (done ++ current).Perm (List.range count)) :
    (done ++ [number] ++ current').Perm (List.range count) := by
  rw [List.append_assoc]
  exact (hcurrent.symm.append_left done).trans hperm

end Numbers

end VotingSystem.Data
