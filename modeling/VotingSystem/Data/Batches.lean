import Mathlib.Data.List.Dedup
import Mathlib.Data.List.Sort

namespace VotingSystem.Data

/-! Batches of elements of a linear order. Each batch is worked off in order, and
what an earlier one has done is skipped. -/

section Batches

variable {α : Type} [LinearOrder α]

/-- The elements of a batch as an ordered set holds them. -/
def orderedSet (batch : List α) : List α := batch.dedup.insertionSort (· ≤ ·)

def addOne (done : List α) (element : α) : List α :=
  if element ∈ done then done else done ++ [element]

def addBatch (done batch : List α) : List α := (orderedSet batch).foldl addOne done

def addBatches (done : List α) (batches : List (List α)) : List α :=
  batches.foldl addBatch done

theorem orderedSet_sorted (batch : List α) : (orderedSet batch).SortedLT := by
  apply List.sortedLE_insertionSort.sortedLT_of_nodup
  exact (List.perm_insertionSort _ _).nodup_iff.mpr (List.nodup_dedup batch)

@[simp] theorem mem_orderedSet {batch : List α} {element : α} :
    element ∈ orderedSet batch ↔ element ∈ batch := by
  rw [orderedSet, (List.perm_insertionSort _ _).mem_iff, List.mem_dedup]

theorem orderedSet_congr {batch batch' : List α}
    (hsame : ∀ element, element ∈ batch ↔ element ∈ batch') :
    orderedSet batch = orderedSet batch' :=
  (orderedSet_sorted batch).eq_of_mem_iff (orderedSet_sorted batch')
    fun element => by simp [hsame]

theorem foldl_addOne {elements : List α} (hnodup : elements.Nodup) (done : List α) :
    elements.foldl addOne done = done ++ elements.filter (· ∉ done) := by
  induction elements generalizing done with
  | nil => simp
  | cons element elements ih =>
      obtain ⟨hnew, hnodup⟩ := List.nodup_cons.mp hnodup
      rw [List.foldl_cons, ih hnodup, addOne]
      by_cases hdone : element ∈ done
      · simp [hdone]
      · have hfilter : elements.filter (· ∉ done ++ [element]) =
            elements.filter (· ∉ done) := by
          apply List.filter_congr
          intro other hother
          have hne : other ≠ element := by
            rintro rfl
            exact hnew hother
          simp [hne]
        rw [if_neg hdone, hfilter, List.filter_cons_of_pos (by simpa using hdone),
          List.append_assoc, List.singleton_append]

/-- A batch adds what is not done yet, in order, after everything done. -/
theorem addBatch_eq (done batch : List α) :
    addBatch done batch = done ++ (orderedSet batch).filter (· ∉ done) :=
  foldl_addOne (orderedSet_sorted batch).nodup done

@[simp] theorem mem_addBatch {done batch : List α} {element : α} :
    element ∈ addBatch done batch ↔ element ∈ done ∨ element ∈ batch := by
  by_cases hdone : element ∈ done <;> simp [addBatch_eq, hdone]

theorem mem_addBatches {done : List α} {batches : List (List α)} {element : α} :
    element ∈ addBatches done batches ↔
      element ∈ done ∨ ∃ batch ∈ batches, element ∈ batch := by
  induction batches generalizing done with
  | nil => simp [addBatches]
  | cons batch batches ih =>
      have hrest := @ih (addBatch done batch)
      rw [addBatches] at hrest
      rw [addBatches, List.foldl_cons, hrest, mem_addBatch, or_assoc]
      simp

theorem exists_addBatches_eq (done : List α) (batches : List (List α)) :
    ∃ added, addBatches done batches = done ++ added := by
  induction batches generalizing done with
  | nil => exact ⟨[], by simp [addBatches]⟩
  | cons batch batches ih =>
      obtain ⟨added, hadded⟩ := ih (addBatch done batch)
      rw [addBatches] at hadded
      refine ⟨(orderedSet batch).filter (· ∉ done) ++ added, ?_⟩
      rw [addBatches, List.foldl_cons, hadded, addBatch_eq, List.append_assoc]

theorem addBatch_nodup {done : List α} (hdone : done.Nodup) (batch : List α) :
    (addBatch done batch).Nodup := by
  rw [addBatch_eq, List.nodup_append]
  refine ⟨hdone, (orderedSet_sorted batch).nodup.filter _, ?_⟩
  rintro element helement other hother rfl
  have hnew := (List.mem_filter.mp hother).2
  simp only [decide_eq_true_eq] at hnew
  exact hnew helement

theorem addBatches_nodup {done : List α} (hdone : done.Nodup) (batches : List (List α)) :
    (addBatches done batches).Nodup := by
  induction batches generalizing done with
  | nil => exact hdone
  | cons batch batches ih => exact ih (addBatch_nodup hdone batch)

/-- What comes with a later batch only is above the whole of an earlier one. -/
def Above (batch later : List α) : Prop :=
  ∀ element ∈ batch, ∀ other ∈ later, other ∉ batch → element < other

theorem addBatch_sorted {done batch : List α} (hdone : done.Pairwise (· < ·))
    (habove : Above done batch) : (addBatch done batch).Pairwise (· < ·) := by
  rw [addBatch_eq, List.pairwise_append]
  refine ⟨hdone, (orderedSet_sorted batch).pairwise.filter _, ?_⟩
  intro element helement other hother
  simp only [List.mem_filter, mem_orderedSet, decide_eq_true_eq] at hother
  exact habove element helement other hother.1 hother.2

theorem addBatches_sorted {done : List α} {batches : List (List α)}
    (hdone : done.Pairwise (· < ·)) (hfirst : ∀ batch ∈ batches, Above done batch)
    (hbatches : batches.Pairwise Above) : (addBatches done batches).Pairwise (· < ·) := by
  induction batches generalizing done with
  | nil => exact hdone
  | cons batch batches ih =>
      obtain ⟨hbatch, hbatches⟩ := List.pairwise_cons.mp hbatches
      rw [addBatches, List.foldl_cons]
      apply ih (addBatch_sorted hdone (hfirst batch (by simp))) _ hbatches
      intro later hlater element helement other hother hnew
      rw [mem_addBatch, not_or] at hnew
      rcases mem_addBatch.mp helement with hold | hadded
      · exact hfirst later (by simp [hlater]) element hold other hother hnew.1
      · exact hbatch later hlater element hadded other hother hnew.2

/-- When batches only grow, what is done is the last batch, so an order in the
result is one between the batches. -/
theorem above_of_addBatches_sorted {done : List α} {batches : List (List α)}
    (hdone : ∀ batch ∈ batches, done ⊆ batch) (hgrow : batches.Pairwise (· ⊆ ·))
    (hsorted : (addBatches done batches).Pairwise (· < ·)) :
    (∀ batch ∈ batches, Above done batch) ∧ batches.Pairwise Above := by
  induction batches generalizing done with
  | nil => simp
  | cons batch batches ih =>
      obtain ⟨hbatch, hgrow⟩ := List.pairwise_cons.mp hgrow
      have hmember : ∀ element, element ∈ addBatch done batch ↔ element ∈ batch := by
        intro element
        rw [mem_addBatch]
        exact or_iff_right_of_imp fun hold => hdone batch (by simp) hold
      rw [addBatches, List.foldl_cons] at hsorted
      obtain ⟨hcross, hrest⟩ := @ih (addBatch done batch)
        (fun later hlater element helement => hbatch later hlater ((hmember element).mp helement))
        hgrow hsorted
      have hfirst : Above done batch := by
        obtain ⟨added, hadded⟩ := exists_addBatches_eq (addBatch done batch) batches
        rw [addBatches] at hadded
        rw [hadded, addBatch_eq, List.append_assoc, List.pairwise_append] at hsorted
        intro element helement other hother hnew
        exact hsorted.2.2 element helement other (by simp [hother, hnew])
      have habove : ∀ later ∈ batches, Above batch later := by
        intro later hlater element helement other hother hnew
        exact hcross later hlater element ((hmember element).mpr helement) other hother
          (mt (hmember other).mp hnew)
      refine ⟨?_, List.pairwise_cons.mpr ⟨habove, hrest⟩⟩
      intro later hlater
      rcases List.mem_cons.mp hlater with rfl | hlater
      · exact hfirst
      · intro element helement other hother hnew
        by_cases hin : other ∈ batch
        · exact hfirst element helement other hin hnew
        · exact habove later hlater element (hdone batch (by simp) helement) other hother hin

theorem Above.mono {batch later last : List α} (habove : Above batch last)
    (hsubset : later ⊆ last) : Above batch later :=
  fun element helement other hother hnew =>
    habove element helement other (hsubset hother) hnew

theorem addBatch_nil (batch : List α) : addBatch [] batch = orderedSet batch := by
  simp [addBatch_eq]

/-- Growing batches leave the same sequence as the last one alone exactly when
each of them lies below what came after it. -/
theorem addBatches_eq_iff {batches : List (List α)} {last : List α}
    (hgrow : (batches ++ [last]).Pairwise (· ⊆ ·)) :
    addBatches [] (batches ++ [last]) = addBatch [] last ↔
      ∀ batch ∈ batches, Above batch last := by
  obtain ⟨hbatches, -, hlast⟩ := List.pairwise_append.mp hgrow
  have hsubset : ∀ batch ∈ batches, batch ⊆ last := fun batch hbatch =>
    hlast batch hbatch last (by simp)
  have hsame : ∀ element, element ∈ addBatches [] (batches ++ [last]) ↔
      element ∈ orderedSet last := by
    intro element
    simp only [mem_addBatches, List.not_mem_nil, false_or, mem_orderedSet, List.mem_append,
      List.mem_singleton]
    constructor
    · rintro ⟨batch, hbatch | rfl, helement⟩
      · exact hsubset batch hbatch helement
      · exact helement
    · intro helement
      exact ⟨last, .inr rfl, helement⟩
  rw [addBatch_nil]
  constructor
  · intro heq batch hbatch
    have hsorted := (orderedSet_sorted last).pairwise
    rw [← heq] at hsorted
    have habove := (above_of_addBatches_sorted (by simp) hgrow hsorted).2
    exact (List.pairwise_append.mp habove).2.2 batch hbatch last (by simp)
  · intro habove
    have hpairwise : (batches ++ [last]).Pairwise Above := by
      rw [List.pairwise_append]
      refine ⟨?_, List.pairwise_singleton _ _, ?_⟩
      · apply List.pairwise_of_forall_mem_list
        intro batch hbatch later hlater
        exact (habove batch hbatch).mono (hsubset later hlater)
      · intro batch hbatch later hlater
        rw [List.mem_singleton.mp hlater]
        exact habove batch hbatch
    have hnone : ∀ batch ∈ batches ++ [last], Above [] batch := by
      intro batch _ element helement
      contradiction
    have hsorted := addBatches_sorted List.Pairwise.nil hnone hpairwise
    exact hsorted.sortedLT.eq_of_mem_iff (orderedSet_sorted last) hsame

end Batches

end VotingSystem.Data
