namespace VotingSystem.Data

/-! Runs of a labelled transition relation. -/

section Runs

variable {State Label : Type} {step : State → Label → State → Prop}

/-- The states that a run from `start` can reach. -/
inductive Reaches (step : State → Label → State → Prop) (start : State) :
    State → Prop
  | refl : Reaches step start start
  | tail {middle finish : State} {label : Label}
      (run : Reaches step start middle) (taken : step middle label finish) :
      Reaches step start finish

def Restricted (step : State → Label → State → Prop)
    (condition : State → Label → Prop) (source : State) (label : Label)
    (target : State) : Prop :=
  step source label target ∧ condition source label

/-- Steps that carry the state they lead to in their label. -/
def Traced (step : State → Label → State → Prop) (source : State) (label : Label × State)
    (target : State) : Prop :=
  step source label.1 target ∧ label.2 = target

namespace Reaches

variable {start middle finish : State}

theorem trans (first : Reaches step start middle)
    (second : Reaches step middle finish) : Reaches step start finish := by
  induction second with
  | refl => exact first
  | tail _ taken ih => exact .tail ih taken

theorem single {label : Label} (taken : step start label finish) :
    Reaches step start finish :=
  .tail .refl taken

theorem of_restricted {condition : State → Label → Prop}
    (run : Reaches (Restricted step condition) start finish) : Reaches step start finish := by
  induction run with
  | refl => exact .refl
  | tail _ taken ih => exact .tail ih taken.1

theorem of_traced (run : Reaches (Traced step) start finish) : Reaches step start finish := by
  induction run with
  | refl => exact .refl
  | tail _ taken ih => exact .tail ih taken.1

theorem weaken {condition condition' : State → Label → Prop}
    (hweaker : ∀ source label, condition source label → condition' source label)
    (run : Reaches (Restricted step condition) start finish) :
    Reaches (Restricted step condition') start finish := by
  induction run with
  | refl => exact .refl
  | tail _ taken ih => exact .tail ih ⟨taken.1, hweaker _ _ taken.2⟩

/-- A run of a function that computes the steps. -/
theorem of_foldlM {next : State → Label → Option State}
    (hnext : ∀ {source label target}, next source label = some target →
      step source label target)
    {labels : List Label} (hrun : labels.foldlM next start = some finish) :
    Reaches step start finish := by
  induction labels generalizing start with
  | nil =>
      cases hrun
      exact .refl
  | cons label labels ih =>
      rw [List.foldlM_cons] at hrun
      obtain ⟨middle, hfirst, hrest⟩ := Option.bind_eq_some_iff.mp hrun
      exact (single (hnext hfirst)).trans (ih hrest)

/-- A property of the start that every step preserves holds wherever a run
arrives. -/
theorem invariant {property : State → Prop} (initially : property start)
    (preserved : ∀ {source label target},
      property source → step source label target → property target)
    (run : Reaches step start finish) : property finish := by
  induction run with
  | refl => exact initially
  | tail _ taken ih => exact preserved ih taken

/-- A relation between two states that is reflexive and extended by every step
relates the ends of a run. -/
theorem relates {relation : State → State → Prop}
    (reflexive : ∀ state, relation state state)
    (extended : ∀ {source middle label target},
      relation source middle → step middle label target → relation source target)
    (run : Reaches step start finish) : relation start finish := by
  induction run with
  | refl => exact reflexive start
  | tail _ taken ih => exact extended ih taken

end Reaches

end Runs

end VotingSystem.Data
