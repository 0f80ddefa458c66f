import VotingSystem.Data.Transition
import VotingSystem.Server.Shutdown

namespace VotingSystem.Server

open VotingSystem.Data

/-! Where the loops of the threads can be. -/

/-- Where `connectionsLoop` can be. -/
def ThreadPosition.OfConnections : ThreadPosition → Prop
  | blocked => False
  | _ => True

/-- Where `clockLoop` can be. -/
def ThreadPosition.OfClock : ThreadPosition → Prop
  | binding => False
  | blocked => False
  | leaving => False
  | _ => True

/-- Where a loop of the pool can be. -/
def ThreadPosition.OfWorker : ThreadPosition → Prop
  | testing => True
  | body => True
  | blocked => True
  | finished => True
  | _ => False

namespace ServerThreads

variable {numThreads : Nat} {server server' : ServerThreads}

structure Positioned (server : ServerThreads) : Prop where
  connections : ∀ thread, server.connectionsLoopThread = some thread →
    thread.position.OfConnections
  clock : ∀ thread, server.clockThread = some thread → thread.position.OfClock
  workers : ∀ thread, some thread ∈ server.poolThreads → thread.position.OfWorker

theorem Positioned.congr (hpositioned : server.Positioned)
    (hconnections : server'.connectionsLoopThread = server.connectionsLoopThread)
    (hclock : server'.clockThread = server.clockThread)
    (hworkers : server'.poolThreads = server.poolThreads) : server'.Positioned := by
  refine ⟨?_, ?_, ?_⟩
  · rw [hconnections]
    exact hpositioned.connections
  · rw [hclock]
    exact hpositioned.clock
  · rw [hworkers]
    exact hpositioned.workers

theorem Positioned.set_worker (hpositioned : server.Positioned) {index : Nat}
    {worker : Option Thread}
    (hworker : ∀ thread, worker = some thread → thread.position.OfWorker) :
    { server with poolThreads := server.poolThreads.set index worker }.Positioned := by
  refine ⟨hpositioned.connections, hpositioned.clock, ?_⟩
  intro thread hthread
  rcases List.mem_or_eq_of_mem_set hthread with hold | hnew
  · exact hpositioned.workers thread hold
  · exact hworker thread hnew.symm

theorem Positioned.returned (hpositioned : server.Positioned) (caller : StopCaller) :
    (server.returned caller).Positioned := by
  cases caller with
  | manager => exact hpositioned.congr rfl rfl rfl
  | serverDestructor => exact hpositioned.congr rfl rfl rfl
  | poolDestructor => exact hpositioned.congr rfl rfl rfl

theorem Positioned.callStop (hpositioned : server.Positioned) (caller : StopCaller) :
    (server.callStop caller).Positioned := by
  unfold ServerThreads.callStop
  split
  · exact hpositioned.congr rfl rfl rfl
  · exact hpositioned.congr rfl rfl rfl

theorem Positioned.join (hpositioned : server.Positioned) {thread : Option Thread}
    {next : ServerThreads} (hnext : next.Positioned)
    (hjoin : server.join thread next = some server') : server'.Positioned := by
  unfold ServerThreads.join at hjoin
  split at hjoin
  · cases hjoin
    exact hpositioned.congr rfl rfl rfl
  · split at hjoin
    · cases hjoin
      exact hnext.congr rfl rfl rfl
    · cases hjoin

theorem Positioned.manage (hpositioned : server.Positioned)
    (hstep : server.manage numThreads = some server') : server'.Positioned := by
  unfold ServerThreads.manage at hstep
  split at hstep
  · cases hstep
  · split at hstep
    · cases hstep
      exact hpositioned.congr rfl rfl rfl
    · cases hstep
      refine ⟨?_, hpositioned.clock, hpositioned.workers⟩
      intro thread hthread
      cases hthread
      exact trivial
  · split at hstep
    · cases hstep
      exact hpositioned.congr rfl rfl rfl
    · cases hstep
      refine ⟨hpositioned.connections, ?_, hpositioned.workers⟩
      intro thread hthread
      cases hthread
      exact trivial
  · cases hstep
    exact hpositioned.congr rfl rfl rfl
  · split at hstep
    · cases hstep
      refine ⟨hpositioned.connections, hpositioned.clock, ?_⟩
      intro thread hthread
      rcases List.mem_append.mp hthread with hold | hnew
      · exact hpositioned.workers thread hold
      · cases List.mem_singleton.mp hnew
        exact trivial
    · cases hstep
      exact hpositioned.congr rfl rfl rfl
  · split at hstep
    · cases hstep
      exact hpositioned.congr rfl rfl rfl
    · cases hstep
      exact hpositioned.returned _
  · cases hstep
    exact hpositioned.congr rfl rfl rfl
  · refine hpositioned.join ?_ hstep
    refine ⟨?_, hpositioned.clock, hpositioned.workers⟩
    intro thread hthread
    cases hthread
  · refine hpositioned.join ?_ hstep
    refine ⟨hpositioned.connections, ?_, hpositioned.workers⟩
    intro thread hthread
    cases hthread
  · split at hstep
    · cases hstep
      exact hpositioned.congr rfl rfl rfl
    · cases hstep
      exact hpositioned.returned _
  · split at hstep
    · refine hpositioned.join ?_ hstep
      have hjoined : ∀ index,
          { server with poolThreads := server.poolThreads.set index none }.Positioned := by
        intro index
        apply hpositioned.set_worker
        intro thread hthread
        cases hthread
      exact (hjoined _).congr rfl rfl rfl
    · cases hstep
      apply Positioned.returned
      exact ⟨hpositioned.connections, hpositioned.clock, by simp⟩
  · split at hstep <;> cases hstep <;> exact hpositioned.congr rfl rfl rfl
  · cases hstep
  · cases hstep
  · cases hstep

theorem Positioned.connectionsLoop (hpositioned : server.Positioned) {failure : Bool}
    (hstep : server.connectionsLoop failure = some server') : server'.Positioned := by
  have hmoved : ∀ {id : Nat} {position : ThreadPosition} {running failed : Bool},
      position.OfConnections →
        { server with
          connectionsLoopThread := some ⟨id, position⟩
          running := running
          failed := failed }.Positioned := by
    intro id position running failed hposition
    refine ⟨?_, hpositioned.clock, hpositioned.workers⟩
    intro thread hthread
    cases hthread
    exact hposition
  unfold ServerThreads.connectionsLoop at hstep
  split at hstep
  · cases hstep
  · split at hstep <;> cases hstep <;> exact hmoved trivial
  · split at hstep <;> cases hstep <;> exact hmoved trivial
  · split at hstep <;> cases hstep <;> exact hmoved trivial
  · cases hstep
    exact hmoved trivial
  · cases hstep
    exact hmoved trivial
  · cases hstep
  · cases hstep

theorem Positioned.clockLoop (hpositioned : server.Positioned)
    (hstep : server.clockLoop = some server') : server'.Positioned := by
  have hmoved : ∀ {id : Nat} {position : ThreadPosition}, position.OfClock →
      { server with clockThread := some ⟨id, position⟩ }.Positioned := by
    intro id position hposition
    refine ⟨hpositioned.connections, ?_, hpositioned.workers⟩
    intro thread hthread
    cases hthread
    exact hposition
  unfold ServerThreads.clockLoop at hstep
  split at hstep
  · split at hstep <;> cases hstep <;> exact hmoved trivial
  · split at hstep <;> cases hstep <;> exact hmoved trivial
  · cases hstep
    exact hmoved trivial
  · cases hstep

theorem Positioned.move_worker (hpositioned : server.Positioned) {index id : Nat}
    {position : ThreadPosition} (hposition : position.OfWorker) :
    { server with
      poolThreads := server.poolThreads.set index (some ⟨id, position⟩) }.Positioned := by
  apply hpositioned.set_worker
  intro thread hthread
  cases hthread
  exact hposition

theorem Positioned.workerLoop (hpositioned : server.Positioned) {index : Nat}
    (hstep : server.workerLoop index = some server') : server'.Positioned := by
  unfold ServerThreads.workerLoop at hstep
  split at hstep
  · split at hstep <;> cases hstep <;> exact hpositioned.move_worker trivial
  · cases hstep
    exact hpositioned.move_worker trivial
  · cases hstep

theorem Positioned.workerBlocks (hpositioned : server.Positioned) {index : Nat}
    (hstep : server.workerBlocks index = some server') : server'.Positioned := by
  unfold ServerThreads.workerBlocks at hstep
  split at hstep <;> cases hstep
  exact hpositioned.move_worker trivial

theorem Positioned.clientUnblocks (hpositioned : server.Positioned) {index : Nat}
    (hstep : server.clientUnblocks index = some server') : server'.Positioned := by
  unfold ServerThreads.clientUnblocks at hstep
  split at hstep <;> cases hstep
  exact hpositioned.move_worker trivial

theorem Positioned.step (hpositioned : server.Positioned) {event : ServerEvent}
    (hstep : ServerStep numThreads server event server') : server'.Positioned := by
  unfold ServerStep at hstep
  cases event with
  | start =>
      simp only [ServerThreads.step] at hstep
      split at hstep <;> cases hstep
      exact hpositioned.congr rfl rfl rfl
  | stop =>
      simp only [ServerThreads.step] at hstep
      split at hstep <;> cases hstep
      exact hpositioned.callStop .manager
  | destroy =>
      simp only [ServerThreads.step] at hstep
      split at hstep <;> cases hstep
      exact hpositioned.callStop .serverDestructor
  | manage => exact hpositioned.manage hstep
  | connections failure => exact hpositioned.connectionsLoop hstep
  | clock => exact hpositioned.clockLoop hstep
  | worker index => exact hpositioned.workerLoop hstep
  | workerBlocks index => exact hpositioned.workerBlocks hstep
  | clientUnblocks index => exact hpositioned.clientUnblocks hstep

theorem Positioned.run
    (hrun : Reaches (Restricted (ServerStep numThreads) Careful) .constructed server) :
    server.Positioned := by
  have hconstructed : constructed.Positioned := by
    refine ⟨?_, ?_, ?_⟩
    · intro thread hthread
      cases hthread
    · intro thread hthread
      cases hthread
    · intro thread hthread
      cases hthread
  apply hrun.invariant hconstructed
  intro source event target hsource hstep
  exact hsource.step hstep.1

end ServerThreads

end VotingSystem.Server
