import VotingSystem.Data.Transition

namespace VotingSystem.Data

/-! Runs that come to an end because a rank goes down. -/

section Progress

variable {State Label : Type} {step : State → Label → State → Prop}

/-- A run through pending states, with the number of its steps that count. -/
inductive PendingRun (step : State → Label → State → Prop) (pending : State → Prop)
    (counts : State → Label → Prop) (start : State) : Nat → State → Prop
  | refl : PendingRun step pending counts start 0 start
  | counted {taken : Nat} {middle finish : State} {label : Label}
      (run : PendingRun step pending counts start taken middle) (hpending : pending middle)
      (hstep : step middle label finish) (hcounts : counts middle label) :
      PendingRun step pending counts start (taken + 1) finish
  | free {taken : Nat} {middle finish : State} {label : Label}
      (run : PendingRun step pending counts start taken middle) (hpending : pending middle)
      (hstep : step middle label finish) (hcounts : ¬ counts middle label) :
      PendingRun step pending counts start taken finish

theorem PendingRun.mono {step' : State → Label → State → Prop} {pending : State → Prop}
    {counts : State → Label → Prop} {start finish : State} {taken : Nat}
    (hstep : ∀ {source label target}, step source label target → step' source label target)
    (run : PendingRun step pending counts start taken finish) :
    PendingRun step' pending counts start taken finish := by
  induction run with
  | refl => exact .refl
  | counted _ hpending htaken hcounts ih => exact .counted ih hpending (hstep htaken) hcounts
  | free _ hpending htaken hcounts ih => exact .free ih hpending (hstep htaken) hcounts

/-- In a pending state a step that counts lowers the rank, and no step raises it. -/
structure Ranked (step : State → Label → State → Prop) (invariant pending : State → Prop)
    (counts : State → Label → Prop) (rank : State → Nat) : Prop where
  preserved : ∀ {source label target}, invariant source → pending source →
    step source label target → invariant target
  decreases : ∀ {source label target}, invariant source → pending source →
    step source label target → counts source label → rank target < rank source
  nonincreasing : ∀ {source label target}, invariant source → pending source →
    step source label target → rank target ≤ rank source

/-- In a pending state there is always such a step. -/
structure Progress (step : State → Label → State → Prop) (invariant pending : State → Prop)
    (counts : State → Label → Prop) (rank : State → Nat) : Prop
    extends Ranked step invariant pending counts rank where
  enabled : ∀ {source}, invariant source → pending source →
    ∃ label target, step source label target ∧ counts source label

variable {invariant pending : State → Prop} {counts : State → Label → Prop}
variable {rank : State → Nat} {start finish : State} {taken : Nat}

theorem PendingRun.reaches (run : PendingRun step pending counts start taken finish) :
    Reaches step start finish := by
  induction run with
  | refl => exact .refl
  | counted _ _ hstep _ ih => exact ih.tail hstep
  | free _ _ hstep _ ih => exact ih.tail hstep

namespace Ranked

variable (hranked : Ranked step invariant pending counts rank)

include hranked

theorem invariant_run (hstart : invariant start)
    (run : PendingRun step pending counts start taken finish) : invariant finish := by
  induction run with
  | refl => exact hstart
  | counted _ hpending hstep _ ih => exact hranked.preserved ih hpending hstep
  | free _ hpending hstep _ ih => exact hranked.preserved ih hpending hstep

/-- No run takes more steps that count than the rank of its start. -/
theorem taken_add_rank_le (hstart : invariant start)
    (run : PendingRun step pending counts start taken finish) :
    taken + rank finish ≤ rank start := by
  induction run with
  | refl => omega
  | counted run hpending hstep hcounts ih =>
      have hlower := hranked.decreases (hranked.invariant_run hstart run) hpending hstep
        hcounts
      omega
  | free run hpending hstep _ ih =>
      have hsame := hranked.nonincreasing (hranked.invariant_run hstart run) hpending hstep
      omega

end Ranked

/-- From a pending state some run lowers the rank, so that some run ends the wait. -/
theorem Reaches.exists_finish {rank : State → Nat}
    (hlower : ∀ source, invariant source → pending source →
      ∃ next, Reaches step source next ∧ invariant next ∧ rank next < rank source)
    (hstart : invariant start) :
    ∃ finish, Reaches step start finish ∧ invariant finish ∧ ¬ pending finish := by
  induction hrank : rank start using Nat.strongRecOn generalizing start with
  | ind bound ih =>
      by_cases hpending : pending start
      · obtain ⟨next, hfirst, hnext, hless⟩ := hlower start hstart hpending
        obtain ⟨finish, hrest, hfinish⟩ := ih (rank next) (hrank ▸ hless) hnext rfl
        exact ⟨finish, hfirst.trans hrest, hfinish⟩
      · exact ⟨start, .refl, hstart, hpending⟩

/-- Wherever a run has come to, it can go on to a state that is not pending. -/
theorem Progress.exists_finish (hprogress : Progress step invariant pending counts rank)
    (hstart : invariant start) :
    ∃ finish, Reaches step start finish ∧ invariant finish ∧ ¬ pending finish := by
  refine @Reaches.exists_finish _ _ _ _ _ _ rank ?_ hstart
  intro source hsource hpending
  obtain ⟨label, next, hstep, hcounts⟩ := hprogress.enabled hsource hpending
  exact ⟨next, .single hstep, hprogress.preserved hsource hpending hstep,
    hprogress.decreases hsource hpending hstep hcounts⟩

end Progress

end VotingSystem.Data
