import VotingSystem.Data.Progress
import VotingSystem.Data.Table
import VotingSystem.Server.ThreadPositions

namespace VotingSystem.Server

open VotingSystem.Data

/-! `stop` and the destructor come to their end. -/

namespace ManagerPosition

/-- Inside a `stop` or the destructor. -/
def Ending : ManagerPosition → Prop
  | testFailed _ => True
  | clearRunning _ => True
  | joinConnections _ => True
  | joinClock _ => True
  | stopPool _ => True
  | joinWorkers _ _ => True
  | destroyThreads => True
  | _ => False

/-- Where the managing thread is once a call of the caller is over. -/
def afterCall : StopCaller → ManagerPosition
  | .manager => idle
  | .serverDestructor => destroyed
  | .poolDestructor => destroyed

def outcome : ManagerPosition → ManagerPosition
  | testFailed caller => afterCall caller
  | clearRunning caller => afterCall caller
  | joinConnections caller => afterCall caller
  | joinClock caller => afterCall caller
  | stopPool caller => afterCall caller
  | joinWorkers caller _ => afterCall caller
  | destroyThreads => destroyed
  | position => position

end ManagerPosition

/-- The turns that a thread still has once the flag of its loop is cleared. To wait for a
client takes none and ends none. -/
def ThreadPosition.turns : ThreadPosition → Nat
  | finished => 0
  | leaving => 1
  | testing => 2
  | binding => 3
  | body => 3
  | blocked => 3
  | tested => 4

theorem ThreadPosition.turns_le (position : ThreadPosition) : position.turns ≤ 4 := by
  cases position <;> decide

theorem ThreadPosition.OfWorker.turns_le {position : ThreadPosition}
    (hworker : position.OfWorker) : position.turns ≤ 3 := by
  cases position with
  | tested => exact hworker.elim
  | leaving => decide
  | binding => decide
  | testing => decide
  | body => decide
  | blocked => decide
  | finished => decide

namespace ServerThreads

variable {numThreads : Nat} {server server' : ServerThreads}

/-! The rank of a call. -/

def turnsLeft : Option Thread → Nat
  | none => 0
  | some thread => thread.position.turns

theorem turnsLeft_le (thread : Option Thread) : turnsLeft thread ≤ 4 := by
  cases thread with
  | none => exact Nat.zero_le 4
  | some thread => exact thread.position.turns_le

def workersLeft (server : ServerThreads) : Nat := (server.poolThreads.map turnsLeft).sum

section Rank

variable (numThreads)

/-- What the pool needs once its flag is cleared. -/
def poolTurns : Nat := 4 * numThreads + 1

/-- What the destructors do after a `stop`. -/
def callTurns : StopCaller → Nat
  | .manager => 0
  | .serverDestructor => poolTurns numThreads + 2
  | .poolDestructor => 1

def endRank (server : ServerThreads) : Nat :=
  match server.manager with
  | .testFailed caller => poolTurns numThreads + callTurns numThreads caller + 13
  | .clearRunning caller => poolTurns numThreads + callTurns numThreads caller + 12
  | .joinConnections caller =>
      turnsLeft server.connectionsLoopThread + turnsLeft server.clockThread +
        poolTurns numThreads + callTurns numThreads caller + 3
  | .joinClock caller =>
      turnsLeft server.clockThread + poolTurns numThreads + callTurns numThreads caller + 2
  | .stopPool caller => poolTurns numThreads + callTurns numThreads caller + 1
  | .joinWorkers caller index =>
      server.workersLeft + (numThreads - index) + callTurns numThreads caller + 1
  | .destroyThreads => 1
  | _ => 0

end Rank

/-- The statements of the call, and the turns of the threads that it waits for. -/
def Awaited (server : ServerThreads) : ServerEvent → Prop
  | .manage => True
  | .connections _ => ∃ caller, server.manager = .joinConnections caller
  | .clock => (∃ caller, server.manager = .joinConnections caller) ∨
      ∃ caller, server.manager = .joinClock caller
  | .worker _ => ∃ caller index, server.manager = .joinWorkers caller index
  | _ => False

theorem endRank_returned (caller : StopCaller) :
    (server.returned caller).endRank numThreads = callTurns numThreads caller := by
  cases caller with
  | manager => rfl
  | serverDestructor => rfl
  | poolDestructor => rfl

/-- What a turn of `connectionsLoop` leaves alone, and what it takes away. -/
theorem connectionsLoop_turns {failure : Bool}
    (hstep : server.connectionsLoop failure = some server') :
    server'.manager = server.manager ∧ server'.clockThread = server.clockThread ∧
      server'.poolThreads = server.poolThreads ∧
        (server.running = false →
          turnsLeft server'.connectionsLoopThread < turnsLeft server.connectionsLoopThread) := by
  unfold ServerThreads.connectionsLoop at hstep
  split at hstep
  · cases hstep
  · rename_i id hthread
    split at hstep <;> cases hstep <;> simp [hthread, turnsLeft, ThreadPosition.turns]
  · rename_i id hthread
    split at hstep <;> cases hstep <;> simp_all [turnsLeft, ThreadPosition.turns]
  · rename_i id hthread
    split at hstep <;> cases hstep <;> simp [hthread, turnsLeft, ThreadPosition.turns]
  · rename_i id hthread
    cases hstep
    simp [hthread, turnsLeft, ThreadPosition.turns]
  · rename_i id hthread
    cases hstep
    simp [hthread, turnsLeft, ThreadPosition.turns]
  · cases hstep
  · cases hstep

theorem clockLoop_turns (hstep : server.clockLoop = some server') :
    server'.manager = server.manager ∧
      server'.connectionsLoopThread = server.connectionsLoopThread ∧
        server'.poolThreads = server.poolThreads ∧
          (server.running = false →
            turnsLeft server'.clockThread < turnsLeft server.clockThread) := by
  unfold ServerThreads.clockLoop at hstep
  split at hstep
  · rename_i id hthread
    split at hstep <;> cases hstep <;> simp_all [turnsLeft, ThreadPosition.turns]
  · rename_i id hthread
    split at hstep <;> cases hstep <;> simp [hthread, turnsLeft, ThreadPosition.turns]
  · rename_i id hthread
    cases hstep
    simp [hthread, turnsLeft, ThreadPosition.turns]
  · cases hstep

/-- The worker at `index` inside a `recv` or a `send` that waits. -/
def Blocked (server : ServerThreads) (index : Nat) : Prop :=
  ∃ id, server.poolThreads[index]? = some (some ⟨id, .blocked⟩)

/-- A step of one worker of the pool from `position` to `position'`. -/
structure WorkerMoves (index : Nat) (position position' : ThreadPosition)
    (server server' : ServerThreads) : Prop where
  moved : ∃ id, server.poolThreads[index]? = some (some ⟨id, position⟩) ∧
    server' =
      { server with poolThreads := server.poolThreads.set index (some ⟨id, position'⟩) }

theorem WorkerMoves.workersLeft {index : Nat} {position position' : ThreadPosition}
    (hmoves : WorkerMoves index position position' server server') :
    server'.workersLeft + position.turns = server.workersLeft + position'.turns := by
  obtain ⟨id, hthread, rfl⟩ := hmoves.moved
  exact sum_map_set turnsLeft hthread (some ⟨id, position'⟩)

theorem WorkerMoves.manager {index : Nat} {position position' : ThreadPosition}
    (hmoves : WorkerMoves index position position' server server') :
    server'.manager = server.manager := by
  obtain ⟨id, _, rfl⟩ := hmoves.moved
  rfl

theorem WorkerMoves.endRank_of_joining {index : Nat} {position position' : ThreadPosition}
    (hmoves : WorkerMoves index position position' server server') {caller : StopCaller}
    {joined : Nat} (hjoining : server.manager = .joinWorkers caller joined) :
    server'.endRank numThreads + position.turns =
      server.endRank numThreads + position'.turns := by
  have hworkers := hmoves.workersLeft
  have hjoining' := hmoves.manager.trans hjoining
  simp only [ServerThreads.endRank, hjoining, hjoining']
  omega

theorem WorkerMoves.endRank_of_not_joining {index : Nat}
    {position position' : ThreadPosition}
    (hmoves : WorkerMoves index position position' server server')
    (hother : ¬ ∃ caller joined, server.manager = .joinWorkers caller joined) :
    server'.endRank numThreads = server.endRank numThreads := by
  obtain ⟨id, _, rfl⟩ := hmoves.moved
  cases hmanager : server.manager with
  | joinWorkers caller joined => exact absurd ⟨caller, joined, hmanager⟩ hother
  | _ => simp only [ServerThreads.endRank, hmanager]

theorem WorkerMoves.endRank_le {index : Nat} {position position' : ThreadPosition}
    (hmoves : WorkerMoves index position position' server server')
    (hturns : position'.turns ≤ position.turns) :
    server'.endRank numThreads ≤ server.endRank numThreads := by
  by_cases hjoining : ∃ caller joined, server.manager = .joinWorkers caller joined
  · obtain ⟨caller, joined, hjoining⟩ := hjoining
    have hrank := @WorkerMoves.endRank_of_joining numThreads _ _ _ _ _ hmoves _ _ hjoining
    omega
  · exact (hmoves.endRank_of_not_joining hjoining).le

/-- Only the client of a blocked worker frees it. -/
theorem WorkerMoves.blocked {index index' : Nat} {position position' : ThreadPosition}
    (hmoves : WorkerMoves index position position' server server')
    (hother : position = .blocked → index ≠ index') (hblocked : server.Blocked index') :
    server'.Blocked index' := by
  obtain ⟨id, hthread, rfl⟩ := hmoves.moved
  obtain ⟨id', hthread'⟩ := hblocked
  have hne : index ≠ index' := by
    rintro rfl
    rw [hthread] at hthread'
    cases hthread'
    exact hother rfl rfl
  refine ⟨id', ?_⟩
  rw [List.getElem?_set_ne hne]
  exact hthread'

theorem workerLoop_moves {index : Nat} (hstep : server.workerLoop index = some server') :
    ∃ position position', WorkerMoves index position position' server server' ∧
      position ≠ .blocked ∧
        (server.poolRunning = false → position'.turns < position.turns) := by
  unfold ServerThreads.workerLoop at hstep
  split at hstep
  · rename_i id hthread
    split at hstep
    · rename_i hpool
      cases hstep
      refine ⟨_, _, ⟨id, hthread, rfl⟩, by decide, fun hstopped => ?_⟩
      rw [hpool] at hstopped
      cases hstopped
    · cases hstep
      exact ⟨_, _, ⟨id, hthread, rfl⟩, by decide, fun _ => by decide⟩
  · rename_i id hthread
    cases hstep
    exact ⟨_, _, ⟨id, hthread, rfl⟩, by decide, fun _ => by decide⟩
  · cases hstep

theorem workerBlocks_moves {index : Nat} (hstep : server.workerBlocks index = some server') :
    WorkerMoves index .body .blocked server server' := by
  unfold ServerThreads.workerBlocks at hstep
  split at hstep <;> cases hstep
  rename_i id hthread
  exact ⟨id, hthread, rfl⟩

theorem clientUnblocks_moves {index : Nat}
    (hstep : server.clientUnblocks index = some server') :
    WorkerMoves index .blocked .body server server' := by
  unfold ServerThreads.clientUnblocks at hstep
  split at hstep <;> cases hstep
  rename_i id hthread
  exact ⟨id, hthread, rfl⟩

/-- What holds of a server during a call whose outcome is `final`. -/
structure Closing (numThreads : Nat) (final : ManagerPosition) (server : ServerThreads) :
    Prop where
  sound : server.Sound numThreads
  positioned : server.Positioned
  ending : server.manager ≠ final → server.manager.Ending
  outcome : server.manager.outcome = final

theorem outcome_returned (caller : StopCaller) :
    (server.returned caller).manager.outcome = ManagerPosition.afterCall caller := by
  cases caller with
  | manager => rfl
  | serverDestructor => rfl
  | poolDestructor => rfl

theorem workersLeft_le (hpositioned : server.Positioned)
    (hlength : server.poolThreads.length = numThreads) :
    server.workersLeft ≤ 3 * numThreads := by
  have hworker : ∀ worker ∈ server.poolThreads, turnsLeft worker ≤ 3 := by
    intro worker hworker
    cases worker with
    | none => exact Nat.zero_le 3
    | some thread => exact (hpositioned.workers thread hworker).turns_le
  have hsum := sum_map_le hworker
  rw [hlength, mul_comm] at hsum
  exact hsum

theorem Has.length_workers {connections clock poolRunning : Bool} {workers : List Bool}
    (hhas : server.Has connections clock poolRunning workers) :
    server.poolThreads.length = workers.length := by
  rw [← hhas.workers, List.length_map]

/-- A statement of the call: it stays in the call or ends it, and lowers the rank. -/
structure Proceeds (numThreads : Nat) (server server' : ServerThreads) : Prop where
  outcome : server'.manager.outcome = server.manager.outcome
  ending : server'.manager ≠ server.manager.outcome → server'.manager.Ending
  rank : server'.endRank numThreads < server.endRank numThreads

theorem Proceeds.returned {caller : StopCaller} {returning : ServerThreads}
    (houtcome : server.manager.outcome = ManagerPosition.afterCall caller)
    (hrank : callTurns numThreads caller < server.endRank numThreads) :
    Proceeds numThreads server (returning.returned caller) where
  outcome := by rw [houtcome, outcome_returned]
  ending := by
    rw [houtcome]
    intro hother
    cases caller with
    | manager => exact absurd rfl hother
    | serverDestructor => exact trivial
    | poolDestructor => exact trivial
  rank := by rwa [endRank_returned]

theorem Sound.proceeds (hserver : server.Sound numThreads) (hpositioned : server.Positioned)
    (hending : server.manager.Ending) (hstep : server.manage numThreads = some server') :
    Proceeds numThreads server server' := by
  have hagrees := hserver.agrees
  cases hmanager : server.manager with
  | testFailed caller =>
      rw [ServerThreads.manage, hmanager] at hstep
      simp only at hstep
      split at hstep
      · cases hstep
        refine ⟨by simp only [hmanager, ManagerPosition.outcome], fun _ => trivial, ?_⟩
        simp only [endRank, hmanager]
        omega
      · cases hstep
        apply Proceeds.returned
        · rw [hmanager, ManagerPosition.outcome]
        · simp only [endRank, hmanager]
          omega
  | clearRunning caller =>
      rw [ServerThreads.manage, hmanager] at hstep
      cases hstep
      refine ⟨by simp only [hmanager, ManagerPosition.outcome], fun _ => trivial, ?_⟩
      have hconnections := turnsLeft_le server.connectionsLoopThread
      have hclock := turnsLeft_le server.clockThread
      simp only [endRank, hmanager]
      omega
  | joinConnections caller =>
      simp only [Agrees, hmanager] at hagrees
      obtain ⟨id, position, hthread⟩ := exists_of_isSome hagrees.1.connections
      simp only [ServerThreads.manage, hmanager, hthread] at hstep
      obtain ⟨hfinished, rfl⟩ := join_eq_some hstep
      refine ⟨by simp only [hmanager, ManagerPosition.outcome], fun _ => trivial, ?_⟩
      simp only [endRank, hmanager]
      omega
  | joinClock caller =>
      simp only [Agrees, hmanager] at hagrees
      obtain ⟨id, position, hthread⟩ := exists_of_isSome hagrees.1.clock
      simp only [ServerThreads.manage, hmanager, hthread] at hstep
      obtain ⟨hfinished, rfl⟩ := join_eq_some hstep
      refine ⟨by simp only [hmanager, ManagerPosition.outcome], fun _ => trivial, ?_⟩
      simp only [endRank, hmanager]
      omega
  | stopPool caller =>
      simp only [Agrees, hmanager] at hagrees
      rw [ServerThreads.manage, hmanager] at hstep
      simp only at hstep
      split at hstep
      · rename_i hpool
        cases hstep
        refine ⟨by simp only [hmanager, ManagerPosition.outcome], fun _ => trivial, ?_⟩
        have hlength : server.poolThreads.length = numThreads := by
          obtain ⟨hhas, _⟩ | ⟨hhas, _⟩ := hagrees
          · simpa using hhas.length_workers
          · rw [hhas.poolRunning] at hpool
            cases hpool
        have hworkers := workersLeft_le hpositioned hlength
        rw [workersLeft] at hworkers
        simp only [endRank, hmanager, workersLeft, poolTurns]
        omega
      · cases hstep
        apply Proceeds.returned
        · rw [hmanager, ManagerPosition.outcome]
        · simp only [endRank, hmanager]
          omega
  | joinWorkers caller index =>
      simp only [Agrees, hmanager] at hagrees
      obtain ⟨hhas, hindex, _⟩ := hagrees
      simp only [ServerThreads.manage, hmanager] at hstep
      split at hstep
      · rename_i hlt
        obtain ⟨worker, hworker⟩ := exists_some_of_isSome hlt hhas.workers
        rw [hworker, Option.join_some] at hstep
        obtain ⟨hfinished, rfl⟩ := join_eq_some hstep
        refine ⟨by simp only [hmanager, ManagerPosition.outcome], fun _ => trivial, ?_⟩
        have hsum := sum_map_set turnsLeft hworker none
        simp only [turnsLeft, hfinished, ThreadPosition.turns] at hsum
        simp only [endRank, hmanager, workersLeft]
        omega
      · cases hstep
        apply Proceeds.returned
        · rw [hmanager, ManagerPosition.outcome]
        · simp only [endRank, hmanager]
          omega
  | destroyThreads =>
      simp only [Agrees, hmanager] at hagrees
      rw [ServerThreads.manage, hmanager] at hstep
      simp only [hagrees.1.threads_eq_nil, if_true] at hstep
      cases hstep
      refine ⟨by simp only [hmanager, ManagerPosition.outcome], fun hother => ?_, ?_⟩
      · exact absurd (by rw [hmanager, ManagerPosition.outcome]) hother
      · simp only [endRank, hmanager]
        omega
  | _ =>
      rw [hmanager] at hending
      exact hending.elim

/-- Nothing but the call itself is called while it runs. -/
theorem not_called (hending : server.manager.Ending) {event : ServerEvent}
    (hstep : ServerStep numThreads server event server') :
    event ≠ .start ∧ event ≠ .stop ∧ event ≠ .destroy := by
  have hidle : server.manager ≠ .idle := by
    intro hidle
    rw [hidle] at hending
    exact hending
  refine ⟨?_, ?_, ?_⟩
  · rintro rfl
    simp [ServerStep, ServerThreads.step, hidle] at hstep
  · rintro rfl
    simp [ServerStep, ServerThreads.step, hidle] at hstep
  · rintro rfl
    simp [ServerStep, ServerThreads.step, hidle] at hstep

/-- A turn of a thread lowers the rank if the call waits for it, and raises it never. -/
theorem Sound.turn_endRank (hserver : server.Sound numThreads) {event : ServerEvent}
    (hstep : ServerStep numThreads server event server')
    (hturn : event ≠ .start ∧ event ≠ .stop ∧ event ≠ .destroy) (hevent : event ≠ .manage) :
    server'.manager = server.manager ∧
      server'.endRank numThreads ≤ server.endRank numThreads ∧
        (server.Awaited event → server'.endRank numThreads < server.endRank numThreads) := by
  have hagrees := hserver.agrees
  unfold ServerStep at hstep
  cases event with
  | start => exact absurd rfl hturn.1
  | stop => exact absurd rfl hturn.2.1
  | destroy => exact absurd rfl hturn.2.2
  | manage => exact absurd rfl hevent
  | connections failure =>
      obtain ⟨hmanager, hclock, hworkers, hlower⟩ := connectionsLoop_turns hstep
      refine ⟨hmanager, ?_, ?_⟩
      · cases hposition : server.manager with
        | joinConnections caller =>
            simp only [Agrees, hposition] at hagrees
            have := hlower hagrees.2.1
            simp only [endRank, hmanager, hposition, hclock]
            omega
        | _ => simp only [endRank, workersLeft, hmanager, hposition, hclock, hworkers, le_refl]
      · rintro ⟨caller, hposition⟩
        simp only [Agrees, hposition] at hagrees
        have := hlower hagrees.2.1
        simp only [endRank, hmanager, hposition, hclock]
        omega
  | clock =>
      obtain ⟨hmanager, hconnections, hworkers, hlower⟩ := clockLoop_turns hstep
      refine ⟨hmanager, ?_, ?_⟩
      · cases hposition : server.manager with
        | joinConnections caller =>
            simp only [Agrees, hposition] at hagrees
            have := hlower hagrees.2.1
            simp only [endRank, hmanager, hposition, hconnections]
            omega
        | joinClock caller =>
            simp only [Agrees, hposition] at hagrees
            have := hlower hagrees.2.1
            simp only [endRank, hmanager, hposition]
            omega
        | _ =>
            simp only [endRank, workersLeft, hmanager, hposition, hworkers, le_refl]
      · rintro (⟨caller, hposition⟩ | ⟨caller, hposition⟩)
        · simp only [Agrees, hposition] at hagrees
          have := hlower hagrees.2.1
          simp only [endRank, hmanager, hposition, hconnections]
          omega
        · simp only [Agrees, hposition] at hagrees
          have := hlower hagrees.2.1
          simp only [endRank, hmanager, hposition]
          omega
  | worker index =>
      obtain ⟨position, position', hmoves, _, hlower⟩ := workerLoop_moves hstep
      refine ⟨hmoves.manager, ?_, ?_⟩
      · by_cases hjoining : ∃ caller joined, server.manager = .joinWorkers caller joined
        · obtain ⟨caller, joined, hjoining⟩ := hjoining
          simp only [Agrees, hjoining] at hagrees
          exact hmoves.endRank_le (hlower hagrees.1.poolRunning).le
        · exact (hmoves.endRank_of_not_joining hjoining).le
      · rintro ⟨caller, joined, hjoining⟩
        simp only [Agrees, hjoining] at hagrees
        have hless := hlower hagrees.1.poolRunning
        have hrank := @WorkerMoves.endRank_of_joining numThreads _ _ _ _ _ hmoves _ _ hjoining
        omega
  | workerBlocks index =>
      have hmoves := workerBlocks_moves hstep
      exact ⟨hmoves.manager, hmoves.endRank_le (by decide), fun hawaited => hawaited.elim⟩
  | clientUnblocks index =>
      have hmoves := clientUnblocks_moves hstep
      exact ⟨hmoves.manager, hmoves.endRank_le (by decide), fun hawaited => hawaited.elim⟩

/-- The call waits for a worker that waits for a client. -/
def JoinsBlocked (server : ServerThreads) (index : Nat) : Prop :=
  (∃ caller, server.manager = .joinWorkers caller index) ∧ server.Blocked index

/-- Its next statement can be taken, or the thread that the call waits for has a turn,
unless that is a blocked worker. -/
theorem Sound.exists_awaited (hserver : server.Sound numThreads)
    (hpositioned : server.Positioned) (hending : server.manager.Ending)
    (hfree : ∀ index, ¬ server.JoinsBlocked index) :
    ∃ event server', ServerStep numThreads server event server' ∧ server.Awaited event := by
  have hagrees := hserver.agrees
  cases hmanager : server.manager with
  | testFailed caller =>
      refine ⟨.manage, ?_⟩
      simp only [ServerStep, ServerThreads.step, ServerThreads.manage, hmanager, Awaited, and_true]
      split <;> exact ⟨_, rfl⟩
  | clearRunning caller =>
      refine ⟨.manage, ?_⟩
      simp only [ServerStep, ServerThreads.step, ServerThreads.manage, hmanager, Awaited, and_true]
      exact ⟨_, rfl⟩
  | joinConnections caller =>
      simp only [Agrees, hmanager] at hagrees
      obtain ⟨id, position, hthread⟩ := exists_of_isSome hagrees.1.connections
      by_cases hfinished : position = .finished
      · refine ⟨.manage, ?_⟩
        simp only [ServerStep, ServerThreads.step, ServerThreads.manage, hmanager, hthread,
          join, hfinished, if_true, Awaited, and_true]
        exact ⟨_, rfl⟩
      · refine ⟨.connections false, ?_⟩
        have hconnections := hpositioned.connections _ hthread
        simp only [ServerStep, ServerThreads.step, ServerThreads.connectionsLoop, hthread,
          hagrees.2.1, Awaited, hmanager]
        cases position with
        | finished => exact absurd rfl hfinished
        | blocked => exact hconnections.elim
        | tested =>
            simp only
            split <;> exact ⟨_, rfl, caller, rfl⟩
        | _ => exact ⟨_, rfl, caller, rfl⟩
  | joinClock caller =>
      simp only [Agrees, hmanager] at hagrees
      obtain ⟨id, position, hthread⟩ := exists_of_isSome hagrees.1.clock
      by_cases hfinished : position = .finished
      · refine ⟨.manage, ?_⟩
        simp only [ServerStep, ServerThreads.step, ServerThreads.manage, hmanager, hthread,
          join, hfinished, if_true, Awaited, and_true]
        exact ⟨_, rfl⟩
      · refine ⟨.clock, ?_⟩
        have hclock := hpositioned.clock _ hthread
        simp only [ServerStep, ServerThreads.step, ServerThreads.clockLoop, hthread, hagrees.2.1,
          Awaited, hmanager]
        cases position with
        | finished => exact absurd rfl hfinished
        | binding => exact hclock.elim
        | blocked => exact hclock.elim
        | leaving => exact hclock.elim
        | tested =>
            simp only
            split <;> exact ⟨_, rfl, .inr ⟨caller, rfl⟩⟩
        | _ => exact ⟨_, rfl, .inr ⟨caller, rfl⟩⟩
  | stopPool caller =>
      refine ⟨.manage, ?_⟩
      simp only [ServerStep, ServerThreads.step, ServerThreads.manage, hmanager, Awaited, and_true]
      split <;> exact ⟨_, rfl⟩
  | joinWorkers caller index =>
      simp only [Agrees, hmanager] at hagrees
      obtain ⟨hhas, hindex, _⟩ := hagrees
      by_cases hlt : index < numThreads
      · obtain ⟨⟨id, position⟩, hthread⟩ := exists_some_of_isSome hlt hhas.workers
        by_cases hfinished : position = .finished
        · refine ⟨.manage, ?_⟩
          simp only [ServerStep, ServerThreads.step, ServerThreads.manage, hmanager, hlt,
            hthread, join, hfinished, if_true, Awaited, and_true, Option.join_some]
          exact ⟨_, rfl⟩
        · refine ⟨.worker index, ?_⟩
          have hworker := hpositioned.workers _ (List.mem_of_getElem? hthread)
          simp only [ServerStep, ServerThreads.step, ServerThreads.workerLoop, hthread,
            hhas.poolRunning, Awaited, hmanager]
          cases position with
          | testing => exact ⟨_, rfl, caller, index, rfl⟩
          | body => exact ⟨_, rfl, caller, index, rfl⟩
          | blocked => exact absurd ⟨⟨caller, hmanager⟩, id, hthread⟩ (hfree index)
          | finished => exact absurd rfl hfinished
          | _ => exact hworker.elim
      · refine ⟨.manage, ?_⟩
        simp only [ServerStep, ServerThreads.step, ServerThreads.manage, hmanager, hlt,
          if_false, Awaited, and_true]
        exact ⟨_, rfl⟩
  | destroyThreads =>
      refine ⟨.manage, ?_⟩
      simp only [ServerStep, ServerThreads.step, ServerThreads.manage, hmanager, Awaited, and_true]
      split <;> exact ⟨_, rfl⟩
  | _ =>
      rw [hmanager] at hending
      exact hending.elim

theorem Sound.keeps_ending (hserver : server.Sound numThreads)
    (hending : server.manager.Ending) {event : ServerEvent}
    (hstep : ServerStep numThreads server event server') : server'.Sound numThreads := by
  obtain ⟨hstart, hstop, hdestroy⟩ := not_called hending hstep
  apply hserver.step hstep
  cases event with
  | start => exact absurd rfl hstart
  | stop => exact absurd rfl hstop
  | destroy => exact absurd rfl hdestroy
  | _ => exact trivial

theorem Closing.step {final : ManagerPosition} (hclosing : server.Closing numThreads final)
    (hending : server.manager.Ending) {event : ServerEvent}
    (hstep : ServerStep numThreads server event server') :
    server'.Closing numThreads final := by
  obtain ⟨hsound, hpositioned, _, houtcome⟩ := hclosing
  have hsound' := hsound.keeps_ending hending hstep
  have hpositioned' := hpositioned.step hstep
  by_cases hevent : event = .manage
  · subst hevent
    have hproceeds := hsound.proceeds hpositioned hending hstep
    refine ⟨hsound', hpositioned', ?_, hproceeds.outcome.trans houtcome⟩
    rw [← houtcome]
    exact hproceeds.ending
  · have hmanager := (hsound.turn_endRank hstep (not_called hending hstep) hevent).1
    refine ⟨hsound', hpositioned', ?_, ?_⟩
    · intro _
      rw [hmanager]
      exact hending
    · rw [hmanager, houtcome]

theorem ranked_of_closing (numThreads : Nat) (final : ManagerPosition) :
    Ranked (ServerStep numThreads) (Closing numThreads final)
      (fun server => server.manager.Ending) Awaited (endRank numThreads) where
  preserved hclosing hending hstep := hclosing.step hending hstep
  decreases := by
    intro source event target hclosing hending hstep hawaited
    by_cases hevent : event = .manage
    · subst hevent
      exact (hclosing.sound.proceeds hclosing.positioned hending hstep).rank
    · exact (hclosing.sound.turn_endRank hstep (not_called hending hstep) hevent).2.2 hawaited
  nonincreasing := by
    intro source event target hclosing hending hstep
    by_cases hevent : event = .manage
    · subst hevent
      exact (hclosing.sound.proceeds hclosing.positioned hending hstep).rank.le
    · exact (hclosing.sound.turn_endRank hstep (not_called hending hstep) hevent).2.1

/-- A client that lets its worker go on gives the call its next step. -/
theorem JoinsBlocked.released {index : Nat} (hjoins : server.JoinsBlocked index)
    (hserver : server.Sound numThreads) (hpositioned : server.Positioned) :
    ∃ released, ServerStep numThreads server (.clientUnblocks index) released ∧
      ∃ event next, ServerStep numThreads released event next ∧ released.Awaited event := by
  obtain ⟨⟨caller, hmanager⟩, id, hthread⟩ := hjoins
  have hstep : ServerStep numThreads server (.clientUnblocks index)
      { server with poolThreads := server.poolThreads.set index (some ⟨id, .body⟩) } := by
    simp only [ServerStep, ServerThreads.step, ServerThreads.clientUnblocks, hthread]
  refine ⟨_, hstep, ?_⟩
  have hending : server.manager.Ending := by
    rw [hmanager]
    exact trivial
  apply (hserver.keeps_ending hending hstep).exists_awaited (hpositioned.step hstep) hending
  rintro index' ⟨⟨caller', hmanager'⟩, id', hthread'⟩
  have hsame : index' = index := by
    rw [hmanager] at hmanager'
    cases hmanager'
    rfl
  have hlt : index < server.poolThreads.length := (List.getElem?_eq_some_iff.mp hthread).1
  simp only [hsame, List.getElem?_set_self hlt] at hthread'
  cases hthread'

theorem Closing.exists_finish {final : ManagerPosition}
    (hclosing : server.Closing numThreads final) :
    ∃ ended, Reaches (ServerStep numThreads) server ended ∧ ended.manager = final := by
  have hranked := ranked_of_closing numThreads final
  have hlower : ∀ source : ServerThreads, source.Closing numThreads final →
      source.manager.Ending → ∃ next, Reaches (ServerStep numThreads) source next ∧
        next.Closing numThreads final ∧ next.endRank numThreads < source.endRank numThreads := by
    intro source hsource hending
    by_cases hfree : ∀ index, ¬ source.JoinsBlocked index
    · obtain ⟨event, next, hstep, hawaited⟩ :=
        hsource.sound.exists_awaited hsource.positioned hending hfree
      exact ⟨next, .single hstep, hsource.step hending hstep,
        hranked.decreases hsource hending hstep hawaited⟩
    · obtain ⟨index, hjoins⟩ := not_forall_not.mp hfree
      obtain ⟨released, hrelease, event, next, hstep, hawaited⟩ :=
        hjoins.released hsource.sound hsource.positioned
      have hreleased := hsource.step hending hrelease
      have hending' : released.manager.Ending := by
        rw [(clientUnblocks_moves hrelease).manager]
        exact hending
      have hfirst := hranked.nonincreasing hsource hending hrelease
      have hsecond := hranked.decreases hreleased hending' hstep hawaited
      exact ⟨next, (Reaches.single hrelease).tail hstep, hreleased.step hending' hstep,
        hsecond.trans_le hfirst⟩
  obtain ⟨ended, hreach, hended, hover⟩ := Reaches.exists_finish hlower hclosing
  refine ⟨ended, hreach, ?_⟩
  by_contra hother
  exact hover (hended.ending hother)

/-! A worker that stays blocked. -/

theorem Blocked.has_worker {index : Nat} (hblocked : server.Blocked index)
    {connections clock poolRunning : Bool} {workers : List Bool}
    (hhas : server.Has connections clock poolRunning workers) : workers[index]? = some true := by
  obtain ⟨id, hthread⟩ := hblocked
  rw [← hhas.workers, List.getElem?_map, hthread]
  rfl

/-- No statement of the call ends it or gives up the worker. -/
theorem Blocked.manage {index : Nat} (hblocked : server.Blocked index)
    (hserver : server.Sound numThreads) (hending : server.manager.Ending)
    (hstep : server.manage numThreads = some server') :
    server'.manager.Ending ∧ server'.Blocked index := by
  have hagrees := hserver.agrees
  cases hmanager : server.manager with
  | testFailed caller =>
      simp only [Agrees, hmanager] at hagrees
      simp only [ServerThreads.manage, hmanager] at hstep
      obtain ⟨_, hfailed, _⟩ | ⟨hhas, _⟩ := hagrees
      · rw [if_pos hfailed] at hstep
        cases hstep
        exact ⟨trivial, hblocked⟩
      · cases hblocked.has_worker hhas
  | clearRunning caller =>
      rw [ServerThreads.manage, hmanager] at hstep
      cases hstep
      exact ⟨trivial, hblocked⟩
  | joinConnections caller =>
      simp only [Agrees, hmanager] at hagrees
      obtain ⟨id, position, hthread⟩ := exists_of_isSome hagrees.1.connections
      simp only [ServerThreads.manage, hmanager, hthread] at hstep
      obtain ⟨_, rfl⟩ := join_eq_some hstep
      exact ⟨trivial, hblocked⟩
  | joinClock caller =>
      simp only [Agrees, hmanager] at hagrees
      obtain ⟨id, position, hthread⟩ := exists_of_isSome hagrees.1.clock
      simp only [ServerThreads.manage, hmanager, hthread] at hstep
      obtain ⟨_, rfl⟩ := join_eq_some hstep
      exact ⟨trivial, hblocked⟩
  | stopPool caller =>
      simp only [Agrees, hmanager] at hagrees
      simp only [ServerThreads.manage, hmanager] at hstep
      obtain ⟨hhas, _⟩ | ⟨hhas, _⟩ := hagrees
      · rw [if_pos hhas.poolRunning] at hstep
        cases hstep
        exact ⟨trivial, hblocked⟩
      · cases hblocked.has_worker hhas
  | joinWorkers caller joined =>
      simp only [Agrees, hmanager] at hagrees
      obtain ⟨hhas, hjoined, _⟩ := hagrees
      simp only [ServerThreads.manage, hmanager] at hstep
      split at hstep
      · rename_i hlt
        obtain ⟨worker, hworker⟩ := exists_some_of_isSome hlt hhas.workers
        rw [hworker, Option.join_some] at hstep
        obtain ⟨hfinished, rfl⟩ := join_eq_some hstep
        obtain ⟨id, hthread⟩ := hblocked
        have hne : joined ≠ index := by
          rintro rfl
          rw [hworker] at hthread
          cases hthread
          cases hfinished
        refine ⟨trivial, id, ?_⟩
        rw [List.getElem?_set_ne hne]
        exact hthread
      · -- every worker would be joined
        have hworker := hblocked.has_worker hhas
        have hall : joined = numThreads := by omega
        rw [hall, Nat.sub_self, List.replicate_zero, List.append_nil] at hworker
        cases List.eq_of_mem_replicate (List.mem_of_getElem? hworker)
  | destroyThreads =>
      simp only [Agrees, hmanager] at hagrees
      cases hblocked.has_worker hagrees.1
  | _ =>
      rw [hmanager] at hending
      exact hending.elim

theorem Blocked.step {index : Nat} (hblocked : server.Blocked index)
    (hserver : server.Sound numThreads) (hending : server.manager.Ending) {event : ServerEvent}
    (hstep : ServerStep numThreads server event server')
    (hevent : event ≠ .clientUnblocks index) :
    server'.manager.Ending ∧ server'.Blocked index := by
  have hcalled := not_called hending hstep
  by_cases hmanage : event = .manage
  · subst hmanage
    exact hblocked.manage hserver hending hstep
  have hmanager := (hserver.turn_endRank hstep hcalled hmanage).1
  rw [hmanager]
  refine ⟨hending, ?_⟩
  cases event with
  | start => exact absurd rfl hcalled.1
  | stop => exact absurd rfl hcalled.2.1
  | destroy => exact absurd rfl hcalled.2.2
  | manage => exact absurd rfl hmanage
  | connections failure =>
      rw [Blocked, (connectionsLoop_turns hstep).2.2.1]
      exact hblocked
  | clock =>
      rw [Blocked, (clockLoop_turns hstep).2.2.1]
      exact hblocked
  | worker moved =>
      obtain ⟨position, position', hmoves, hfree, _⟩ := workerLoop_moves hstep
      exact hmoves.blocked (fun heq => absurd heq hfree) hblocked
  | workerBlocks moved => exact (workerBlocks_moves hstep).blocked nofun hblocked
  | clientUnblocks moved =>
      apply (clientUnblocks_moves hstep).blocked _ hblocked
      rintro - rfl
      exact hevent rfl

theorem Blocked.run {index : Nat} (hblocked : server.Blocked index)
    (hserver : server.Sound numThreads) (hending : server.manager.Ending)
    (hrun : Reaches (Restricted (ServerStep numThreads)
      fun _ event => event ≠ .clientUnblocks index) server server') :
    server'.manager.Ending := by
  have hheld : server'.Sound numThreads ∧ server'.manager.Ending ∧ server'.Blocked index := by
    apply hrun.invariant ⟨hserver, hending, hblocked⟩
    rintro source event target ⟨hsource, hpending, hheld⟩ hstep
    exact ⟨hsource.keeps_ending hpending hstep.1,
      hheld.step hsource hpending hstep.1 hstep.2⟩
  exact hheld.2.1

theorem Sound.endRank_le (hserver : server.Sound numThreads)
    (hpositioned : server.Positioned) :
    server.endRank numThreads ≤ 8 * numThreads + 17 := by
  have hcall : ∀ caller, callTurns numThreads caller ≤ 4 * numThreads + 3 := by
    intro caller
    cases caller <;> simp only [callTurns, poolTurns] <;> omega
  have hconnections := turnsLeft_le server.connectionsLoopThread
  have hclock := turnsLeft_le server.clockThread
  cases hmanager : server.manager with
  | joinWorkers caller index =>
      have hagrees := hserver.agrees
      simp only [Agrees, hmanager] at hagrees
      have hlength := hagrees.1.length_workers
      rw [List.length_append, List.length_replicate, List.length_replicate,
        Nat.add_sub_cancel' hagrees.2.1] at hlength
      have := workersLeft_le hpositioned hlength
      have := hcall caller
      simp only [endRank, hmanager]
      omega
  | testFailed caller =>
      have := hcall caller
      simp only [endRank, hmanager, poolTurns]
      omega
  | clearRunning caller =>
      have := hcall caller
      simp only [endRank, hmanager, poolTurns]
      omega
  | joinConnections caller =>
      have := hcall caller
      simp only [endRank, hmanager, poolTurns]
      omega
  | joinClock caller =>
      have := hcall caller
      simp only [endRank, hmanager, poolTurns]
      omega
  | stopPool caller =>
      have := hcall caller
      simp only [endRank, hmanager, poolTurns]
      omega
  | _ =>
      simp only [endRank, hmanager]
      omega

/-- What holds of a call that ends with `final`, after `taken` of the statements and the
turns that it waits for. -/
structure EndsUnlessBlocked (numThreads : Nat) (final : ManagerPosition) (taken : Nat)
    (server : ServerThreads) : Prop where
  bounded : taken ≤ 8 * numThreads + 17
  outcome : ¬ server.manager.Ending → server.manager = final
  enabled : server.manager.Ending → (∀ index, ¬ server.JoinsBlocked index) →
    ∃ event next, ServerStep numThreads server event next ∧ server.Awaited event
  released : ∀ index, server.JoinsBlocked index →
    ∃ released, ServerStep numThreads server (.clientUnblocks index) released ∧
      ∃ event next, ServerStep numThreads released event next ∧ released.Awaited event
  ended : ∃ ended, Reaches (ServerStep numThreads) server ended ∧ ended.manager = final
  held : ∀ index, server.manager.Ending → server.Blocked index →
    ∀ later, Reaches (Restricted (ServerStep numThreads)
      fun _ event => event ≠ .clientUnblocks index) server later → later.manager.Ending

end ServerThreads

end VotingSystem.Server
