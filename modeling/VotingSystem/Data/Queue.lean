import VotingSystem.Data.Transition

namespace VotingSystem.Data

/-! Queues inside the states of a transition relation. -/

section Runs

variable {State Label Item : Type} {step : State → Label → State → Prop}

/-- A run with its labels. -/
inductive Trace (step : State → Label → State → Prop) (start : State) :
    List Label → State → Prop
  | refl : Trace step start [] start
  | tail {labels : List Label} {middle finish : State} {label : Label}
      (run : Trace step start labels middle) (taken : step middle label finish) :
      Trace step start (labels ++ [label]) finish

theorem Trace.reaches {start finish : State} {labels : List Label}
    (run : Trace step start labels finish) : Reaches step start finish := by
  induction run with
  | refl => exact .refl
  | tail _ taken ih => exact ih.tail taken

/-- What is there in the end was there from the start, or one of the labels made it. -/
theorem Trace.exists_made {start finish : State} {labels : List Label}
    (run : Trace step start labels finish) (present : State → Item → Prop)
    (made : State → Label → Item → Prop)
    (hmade : ∀ {source label target item}, step source label target → present target item →
      present source item ∨ made source label item)
    {item : Item} (hitem : present finish item) :
    present start item ∨ ∃ earlier label later source, labels = earlier ++ label :: later ∧
      Trace step start earlier source ∧ made source label item := by
  induction run with
  | refl => exact .inl hitem
  | @tail labels middle finish label run taken ih =>
      rcases hmade taken hitem with hearlier | hnew
      · rcases ih hearlier with hstart | ⟨earlier, other, later, source, rfl, hsource, hother⟩
        · exact .inl hstart
        · exact .inr ⟨earlier, other, later ++ [label], source, by simp, hsource, hother⟩
      · exact .inr ⟨labels, label, [], middle, rfl, run, hnew⟩

/-- A number that grows by one with one of the labels counts it. -/
theorem Trace.count_eq [DecidableEq Label] {start finish : State} {labels : List Label}
    (run : Trace step start labels finish) (measure : State → Nat) (counted : Label)
    (hmeasure : ∀ {source label target}, step source label target →
      measure target = measure source + if label = counted then 1 else 0) :
    measure finish = measure start + labels.count counted := by
  induction run with
  | refl => rfl
  | tail run taken ih =>
      rw [hmeasure taken, ih, List.count_append, List.count_singleton, Nat.add_assoc]
      simp only [beq_iff_eq]

/-- What a step pushes comes after all that waits, and what it pops was the first. -/
structure Fifo (step : State → Label → State → Prop) (queue : State → List Item)
    (pushed popped : Label → Option Item) : Prop where
  moves : ∀ {source label target}, step source label target →
    queue source ++ (pushed label).toList = (popped label).toList ++ queue target

namespace Fifo

variable {queue : State → List Item} {pushed popped : Label → Option Item}
variable {start finish : State} {labels : List Label}

theorem filterMap_concat (part : Label → Option Item) (labels : List Label) (label : Label) :
    (labels ++ [label]).filterMap part = labels.filterMap part ++ (part label).toList := by
  rw [List.filterMap_append]
  cases hpart : part label with
  | none => simp [hpart]
  | some item => simp [hpart]

/-- Whatever was waiting or is pushed is popped in this order. -/
theorem conserved (hfifo : Fifo step queue pushed popped)
    (run : Trace step start labels finish) :
    queue start ++ labels.filterMap pushed = labels.filterMap popped ++ queue finish := by
  induction run with
  | refl => simp
  | @tail labels middle finish label _ taken ih =>
      calc
        queue start ++ (labels ++ [label]).filterMap pushed =
            (queue start ++ labels.filterMap pushed) ++ (pushed label).toList := by
          rw [filterMap_concat, List.append_assoc]
        _ = labels.filterMap popped ++ (queue middle ++ (pushed label).toList) := by
          rw [ih, List.append_assoc]
        _ = labels.filterMap popped ++ ((popped label).toList ++ queue finish) := by
          rw [hfifo.moves taken]
        _ = (labels ++ [label]).filterMap popped ++ queue finish := by
          rw [filterMap_concat, List.append_assoc]

/-- An item waits until all items before it are popped, and is the next one then. -/
theorem waits (hfifo : Fifo step queue pushed popped) {ahead behind : List Item} {item : Item}
    (hqueue : queue start = ahead ++ item :: behind)
    (run : Trace step start labels finish) :
    labels.filterMap popped <+: ahead ∧ item ∈ queue finish ∨
      ahead ++ [item] <+: labels.filterMap popped := by
  have hconserved := hfifo.conserved run
  have hline : ahead ++ item :: (behind ++ labels.filterMap pushed) =
      labels.filterMap popped ++ queue finish := by
    rw [← hconserved, hqueue, List.append_assoc, List.cons_append]
  rcases List.append_eq_append_iff.mp hline with
    ⟨between, hpopped, hrest⟩ | ⟨between, hahead, hrest⟩
  · cases between with
    | nil =>
        rw [List.append_nil] at hpopped
        rw [List.nil_append] at hrest
        left
        rw [hpopped, ← hrest]
        exact ⟨List.prefix_rfl, List.mem_cons_self⟩
    | cons first between =>
        rw [List.cons_append, List.cons.injEq] at hrest
        obtain ⟨rfl, _⟩ := hrest
        right
        rw [hpopped]
        exact ⟨between, by simp⟩
  · left
    rw [hahead, hrest]
    exact ⟨List.prefix_append _ _, by simp⟩

end Fifo

end Runs

end VotingSystem.Data
