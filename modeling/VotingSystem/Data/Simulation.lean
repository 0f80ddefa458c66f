import VotingSystem.Data.Transition

namespace VotingSystem.Data

/-! Simulation: each step of one transition relation is a run of another. -/

/-- Wherever a concrete state is related to an abstract one, each concrete step is answered
by an abstract run to a related state. -/
structure Simulation {Concrete Abstract Label Event : Type}
    (concrete : Concrete → Label → Concrete → Prop)
    (abstract : Abstract → Event → Abstract → Prop) (related : Concrete → Abstract → Prop) :
    Prop where
  simulates : ∀ {source label target before}, related source before →
    concrete source label target → ∃ after, Reaches abstract before after ∧
      related target after

namespace Simulation

section Runs

variable {Concrete Abstract Label Event : Type}
variable {concrete : Concrete → Label → Concrete → Prop}
variable {abstract : Abstract → Event → Abstract → Prop}
variable {related : Concrete → Abstract → Prop}

/-- `view` forgets what the abstract states do not have. -/
theorem of_view {invariant : Concrete → Prop} {view : Concrete → Abstract}
    (hview : ∀ {source label target}, invariant source → concrete source label target →
      invariant target ∧ Reaches abstract (view source) (view target)) :
    Simulation concrete abstract fun state seen => invariant state ∧ view state = seen where
  simulates := by
    intro source label target before hbefore hstep
    obtain ⟨hsource, rfl⟩ := hbefore
    obtain ⟨htarget, hreaches⟩ := hview hsource hstep
    exact ⟨view target, hreaches, htarget, rfl⟩

variable (hsimulation : Simulation concrete abstract related)
variable {start finish : Concrete} {before : Abstract}

include hsimulation

theorem reaches (hstart : related start before) (hrun : Reaches concrete start finish) :
    ∃ after, Reaches abstract before after ∧ related finish after := by
  induction hrun with
  | refl => exact ⟨before, .refl, hstart⟩
  | tail _ hstep ih =>
      obtain ⟨middle, hreach, hmiddle⟩ := ih
      obtain ⟨after, hlater, hafter⟩ := hsimulation.simulates hmiddle hstep
      exact ⟨after, hreach.trans hlater, hafter⟩

/-- What every abstract step keeps holds beside every concrete state that is reached. -/
theorem transfers {property : Abstract → Prop} (hstart : related start before)
    (initially : property before)
    (preserved : ∀ {source event target},
      property source → abstract source event target → property target)
    (hrun : Reaches concrete start finish) : ∃ after, property after ∧ related finish after := by
  obtain ⟨after, hreach, hafter⟩ := hsimulation.reaches hstart hrun
  exact ⟨after, hreach.invariant initially preserved, hafter⟩

end Runs

/-- Two refinements, one on top of the other. -/
theorem comp {Concrete Middle Abstract Label Signal Event : Type}
    {concrete : Concrete → Label → Concrete → Prop}
    {middle : Middle → Signal → Middle → Prop}
    {abstract : Abstract → Event → Abstract → Prop}
    {related : Concrete → Middle → Prop} {related' : Middle → Abstract → Prop}
    (first : Simulation concrete middle related)
    (second : Simulation middle abstract related') :
    Simulation concrete abstract fun state seen =>
      ∃ between, related state between ∧ related' between seen where
  simulates := by
    intro source label target before hbefore hstep
    obtain ⟨between, hrelated, hrelated'⟩ := hbefore
    obtain ⟨between', hmiddle, htarget⟩ := first.simulates hrelated hstep
    obtain ⟨after, hreach, hafter⟩ := second.reaches hrelated' hmiddle
    exact ⟨after, hreach, between', htarget, hafter⟩

end Simulation

end VotingSystem.Data
