import VotingSystem.Data.Table
import VotingSystem.Data.Transition

namespace VotingSystem.Spec

open VotingSystem.Data

/-! A ballot box: what the election server is for. Ballots go in one by one, and the
result of an election is announced once, after its last ballot. -/

structure Ballot (Voter Election Candidate Time : Type) where
  voter : Voter
  election : Election
  candidate : Candidate
  castAt : Time

structure Result (Election Candidate : Type) where
  election : Election
  votes : Candidate → Nat

structure BallotBox (Voter Election Candidate Time : Type) where
  ballots : List (Ballot Voter Election Candidate Time)
  results : List (Result Election Candidate)

namespace BallotBox

variable {Voter Election Candidate Time : Type} [DecidableEq Election] [DecidableEq Candidate]

def empty : BallotBox Voter Election Candidate Time := ⟨[], []⟩

def count (box : BallotBox Voter Election Candidate Time) (election : Election)
    (candidate : Candidate) : Nat :=
  box.ballots.countP fun ballot =>
    decide (ballot.election = election) && decide (ballot.candidate = candidate)

def Announced (box : BallotBox Voter Election Candidate Time) (election : Election) : Prop :=
  ∃ result ∈ box.results, result.election = election

inductive Event (Voter Election Candidate Time : Type)
  | cast (ballot : Ballot Voter Election Candidate Time)
  | announce (election : Election)

/-- `allowed` is the voting right: who may vote for whom, where and when. -/
inductive Step (allowed : Ballot Voter Election Candidate Time → Prop) :
    BallotBox Voter Election Candidate Time → Event Voter Election Candidate Time →
      BallotBox Voter Election Candidate Time → Prop
  | cast (box : BallotBox Voter Election Candidate Time)
      (ballot : Ballot Voter Election Candidate Time) (hallowed : allowed ballot)
      (hopen : ¬ box.Announced ballot.election) :
      Step allowed box (.cast ballot) { box with ballots := box.ballots ++ [ballot] }
  | announce (box : BallotBox Voter Election Candidate Time) (election : Election)
      (hopen : ¬ box.Announced election) :
      Step allowed box (.announce election)
        { box with results := box.results ++ [⟨election, box.count election⟩] }

/-- Only allowed ballots, and for each election at most one result, which is that of the
ballots in the box. -/
structure Sound (allowed : Ballot Voter Election Candidate Time → Prop)
    (box : BallotBox Voter Election Candidate Time) : Prop where
  allowed : ∀ ballot ∈ box.ballots, allowed ballot
  once : (box.results.map Result.election).Nodup
  final : ∀ result ∈ box.results, result.votes = box.count result.election

variable {allowed : Ballot Voter Election Candidate Time → Prop}
variable {box box' : BallotBox Voter Election Candidate Time}

theorem count_append_of_ne {ballot : Ballot Voter Election Candidate Time}
    {election : Election} (hother : ballot.election ≠ election) :
    count { box with ballots := box.ballots ++ [ballot] } election = box.count election := by
  funext candidate
  simp [count, hother]

theorem Sound.step (hsound : Sound allowed box) {event : Event Voter Election Candidate Time}
    (hstep : Step allowed box event box') : Sound allowed box' := by
  cases hstep with
  | cast ballot hallowed hopen =>
      refine ⟨?_, hsound.once, ?_⟩
      · intro other hother
        rcases List.mem_append.mp hother with hold | hnew
        · exact hsound.allowed other hold
        · rw [List.mem_singleton.mp hnew]
          exact hallowed
      · intro result hresult
        have hother : ballot.election ≠ result.election := fun heq =>
          hopen ⟨result, hresult, heq.symm⟩
        rw [hsound.final result hresult]
        exact (count_append_of_ne hother).symm
  | announce election hopen =>
      refine ⟨hsound.allowed, ?_, ?_⟩
      · rw [List.map_append, List.map_singleton, List.nodup_append']
        refine ⟨hsound.once, List.nodup_singleton _, ?_⟩
        intro other hother hmem
        obtain ⟨result, hresult, rfl⟩ := List.mem_map.mp hother
        exact hopen ⟨result, hresult, List.mem_singleton.mp hmem⟩
      · intro result hresult
        rcases List.mem_append.mp hresult with hold | hnew
        · exact hsound.final result hold
        · rw [List.mem_singleton.mp hnew]
          rfl

theorem Sound.empty : Sound allowed (empty : BallotBox Voter Election Candidate Time) where
  allowed := by
    intro ballot hballot
    cases hballot
  once := .nil
  final := by
    intro result hresult
    cases hresult

theorem Sound.run (hrun : Reaches (Step allowed) BallotBox.empty box) : Sound allowed box :=
  hrun.invariant .empty fun hsource hstep => hsource.step hstep

/-- Every ballot counts for exactly one candidate of its election. -/
theorem sum_count {election : Election} {candidates : List Candidate}
    (hnodup : candidates.Nodup)
    (hcandidates : ∀ ballot ∈ box.ballots, ballot.election = election →
      ballot.candidate ∈ candidates) :
    (candidates.map (box.count election)).sum =
      box.ballots.countP fun ballot => ballot.election = election := by
  unfold count
  apply sum_countP_key hnodup
  intro ballot hballot helection
  exact hcandidates ballot hballot (of_decide_eq_true helection)

end BallotBox

end VotingSystem.Spec
