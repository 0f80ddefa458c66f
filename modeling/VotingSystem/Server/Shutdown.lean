import VotingSystem.Data.Transition
import VotingSystem.Server.ThreadTurns

namespace VotingSystem.Server

open VotingSystem.Data

namespace ServerThreads

variable {numThreads : Nat} {server server' : ServerThreads}

/-! The statements of the managing thread. -/

theorem Has.threads_eq_nil (hhas : server.Has false false false []) :
    server.threads = [] := by
  have hclock : server.clockThread = none := by simpa using hhas.clock
  have hworkers : server.poolThreads = [] := List.map_eq_nil_iff.mp hhas.workers
  rw [threads, hhas.connections_eq_none, hclock, hworkers]
  rfl

theorem exists_of_isSome {thread : Option Thread} (hsome : thread.isSome = true) :
    ∃ id position, thread = some ⟨id, position⟩ := by
  obtain ⟨⟨id, position⟩, hthread⟩ := Option.isSome_iff_exists.mp hsome
  exact ⟨id, position, hthread⟩

theorem join_eq_some {thread : Thread} {next : ServerThreads}
    (hjoin : server.join (some thread) next = some server') :
    thread.position = .finished ∧ server' = { next with joined := server.joined ++ [thread.id] } := by
  rw [join] at hjoin
  split at hjoin
  · rename_i hfinished
    cases hjoin
    exact ⟨hfinished, rfl⟩
  · cases hjoin

theorem Has.congr {connections clock poolRunning : Bool} {workers : List Bool}
    (hhas : server.Has connections clock poolRunning workers)
    (hconnections : server'.connectionsLoopThread = server.connectionsLoopThread)
    (hclock : server'.clockThread = server.clockThread)
    (hpool : server'.poolRunning = server.poolRunning)
    (hworkers : server'.poolThreads = server.poolThreads) :
    server'.Has connections clock poolRunning workers := by
  refine ⟨?_, ?_, ?_, ?_⟩
  · rw [hconnections, hhas.connections]
  · rw [hclock, hhas.clock]
  · rw [hpool, hhas.poolRunning]
  · rw [hworkers, hhas.workers]

theorem Sound.returned
    (hperm : (server.joined ++ server.threads.map Thread.id).Perm (List.range server.spawned))
    (hhas : server.Has false false false []) (hrunning : server.running = false)
    (caller : StopCaller) : (server.returned caller).Sound numThreads := by
  have hnone := hhas.connections_eq_none
  cases caller with
  | manager =>
      refine ⟨hperm, by simp [ServerThreads.returned, hnone], .inr ⟨?_, hrunning⟩⟩
      exact hhas.congr rfl rfl rfl rfl
  | serverDestructor =>
      refine ⟨hperm, by simp [ServerThreads.returned, hnone], .inr ⟨?_, hrunning, rfl⟩⟩
      exact hhas.congr rfl rfl rfl rfl
  | poolDestructor =>
      refine ⟨hperm, by simp [ServerThreads.returned, hnone], ?_, hrunning⟩
      exact hhas.congr rfl rfl rfl rfl

theorem Sound.startConnections (hserver : server.Sound numThreads)
    (hmanager : server.manager = .startConnections)
    (hstep : server.manage numThreads = some server') : server'.Sound numThreads := by
  have hagrees := hserver.agrees
  simp only [Agrees, hmanager] at hagrees
  obtain ⟨hhas, hflagged, hstopped⟩ := hagrees
  have hnone := hhas.connections_eq_none
  simp only [manage, hmanager, hnone, Option.isSome_none, Bool.false_eq_true, if_false,
    Option.some.injEq] at hstep
  subst hstep
  refine ⟨perm_range_succ ?_ hserver.perm, by simp, ⟨⟨rfl, hhas.clock, hhas.poolRunning,
    hhas.workers⟩, hflagged, hstopped⟩⟩
  simp only [threads, hnone, Option.toList_none, Option.toList_some, List.nil_append,
    List.cons_append, List.map_cons]
  rfl

theorem Sound.startClock (hserver : server.Sound numThreads)
    (hmanager : server.manager = .startClock)
    (hstep : server.manage numThreads = some server') : server'.Sound numThreads := by
  have hagrees := hserver.agrees
  simp only [Agrees, hmanager] at hagrees
  obtain ⟨hhas, hflagged, hstopped⟩ := hagrees
  have hnone : server.clockThread = none := by simpa using hhas.clock
  simp only [manage, hmanager, hnone, Option.isSome_none, Bool.false_eq_true, if_false,
    Option.some.injEq] at hstep
  subst hstep
  refine ⟨perm_range_succ ?_ hserver.perm, hserver.leaving, ⟨⟨hhas.connections, rfl,
    hhas.poolRunning, hhas.workers⟩, hflagged, hstopped⟩⟩
  simp only [threads, hnone, Option.toList_none, Option.toList_some, List.append_nil,
    List.append_assoc, List.singleton_append, List.map_append, List.map_cons]
  exact List.perm_middle

theorem Sound.startWorkers (hserver : server.Sound numThreads) {count : Nat}
    (hmanager : server.manager = .startWorkers count)
    (hstep : server.manage numThreads = some server') : server'.Sound numThreads := by
  have hagrees := hserver.agrees
  simp only [Agrees, hmanager] at hagrees
  obtain ⟨hhas, hcount, hflagged, hstopped⟩ := hagrees
  simp only [manage, hmanager] at hstep
  split at hstep
  · rename_i hlt
    cases hstep
    refine ⟨perm_range_succ ?_ hserver.perm, hserver.leaving, ⟨⟨hhas.connections, hhas.clock,
      hhas.poolRunning, ?_⟩, hlt, hflagged, hstopped⟩⟩
    · simp only [threads, List.reduceOption_append, List.map_append]
      rw [← List.append_assoc]
      exact List.perm_append_singleton _ _
    · rw [List.map_append, hhas.workers, List.replicate_succ']
      rfl
  · cases hstep
    have hall : count = numThreads := by omega
    rw [hall] at hhas
    refine ⟨hserver.perm, hserver.leaving, .inl ⟨?_, hflagged, hstopped⟩⟩
    exact hhas.congr rfl rfl rfl rfl

theorem Sound.testFailed (hserver : server.Sound numThreads) {caller : StopCaller}
    (hmanager : server.manager = .testFailed caller)
    (hstep : server.manage numThreads = some server') : server'.Sound numThreads := by
  have hagrees := hserver.agrees
  simp only [Agrees, hmanager] at hagrees
  simp only [manage, hmanager] at hstep
  obtain ⟨hhas, hfailed, hstopped⟩ | ⟨hhas, hrunning, hfailed⟩ := hagrees
  · rw [if_pos hfailed] at hstep
    cases hstep
    exact ⟨hserver.perm, hserver.leaving, hhas.congr rfl rfl rfl rfl, hstopped⟩
  · rw [if_neg (by simp [hfailed])] at hstep
    cases hstep
    exact .returned hserver.perm hhas hrunning caller

theorem Sound.joinConnections (hserver : server.Sound numThreads) {caller : StopCaller}
    (hmanager : server.manager = .joinConnections caller)
    (hstep : server.manage numThreads = some server') : server'.Sound numThreads := by
  have hagrees := hserver.agrees
  simp only [Agrees, hmanager] at hagrees
  obtain ⟨hhas, hrunning, hstopped⟩ := hagrees
  obtain ⟨id, position, hthread⟩ := exists_of_isSome hhas.connections
  simp only [manage, hmanager, hthread] at hstep
  obtain ⟨_, rfl⟩ := join_eq_some hstep
  refine ⟨perm_range_done ?_ hserver.perm, by simp, ⟨⟨rfl, hhas.clock, hhas.poolRunning,
    hhas.workers⟩, hrunning, hstopped⟩⟩
  simp only [threads, hthread, Option.toList_some, Option.toList_none, List.nil_append,
    List.cons_append, List.map_cons]
  rfl

theorem Sound.joinClock (hserver : server.Sound numThreads) {caller : StopCaller}
    (hmanager : server.manager = .joinClock caller)
    (hstep : server.manage numThreads = some server') : server'.Sound numThreads := by
  have hagrees := hserver.agrees
  simp only [Agrees, hmanager] at hagrees
  obtain ⟨hhas, hrunning, hstopped⟩ := hagrees
  obtain ⟨id, position, hthread⟩ := exists_of_isSome hhas.clock
  simp only [manage, hmanager, hthread] at hstep
  obtain ⟨_, rfl⟩ := join_eq_some hstep
  refine ⟨perm_range_done ?_ hserver.perm, hserver.leaving, .inl ⟨⟨hhas.connections, rfl,
    hhas.poolRunning, hhas.workers⟩, hrunning, hstopped⟩⟩
  simp only [threads, hthread, Option.toList_some, Option.toList_none, List.append_nil,
    List.append_assoc, List.singleton_append, List.map_append, List.map_cons]
  exact List.perm_middle

theorem Sound.stopPool (hserver : server.Sound numThreads) {caller : StopCaller}
    (hmanager : server.manager = .stopPool caller)
    (hstep : server.manage numThreads = some server') : server'.Sound numThreads := by
  have hagrees := hserver.agrees
  simp only [Agrees, hmanager] at hagrees
  simp only [manage, hmanager] at hstep
  obtain ⟨hhas, hrunning, hstopped⟩ | ⟨hhas, hrunning, _⟩ := hagrees
  · rw [if_pos hhas.poolRunning] at hstep
    cases hstep
    refine ⟨hserver.perm, hserver.leaving, ⟨⟨hhas.connections, hhas.clock, rfl, ?_⟩,
      Nat.zero_le _, hrunning, hstopped⟩⟩
    exact hhas.workers
  · rw [if_neg (by simp [hhas.poolRunning])] at hstep
    cases hstep
    exact .returned hserver.perm hhas hrunning caller

theorem Sound.joinWorkers (hserver : server.Sound numThreads) {caller : StopCaller}
    {index : Nat} (hmanager : server.manager = .joinWorkers caller index)
    (hstep : server.manage numThreads = some server') : server'.Sound numThreads := by
  have hagrees := hserver.agrees
  simp only [Agrees, hmanager] at hagrees
  obtain ⟨hhas, hindex, hrunning, hstopped⟩ := hagrees
  simp only [manage, hmanager] at hstep
  split at hstep
  · rename_i hlt
    obtain ⟨worker, hworker⟩ := exists_some_of_isSome hlt hhas.workers
    rw [hworker, Option.join_some] at hstep
    obtain ⟨_, rfl⟩ := join_eq_some hstep
    refine ⟨perm_range_done ?_ hserver.perm, hserver.leaving, ⟨⟨hhas.connections, hhas.clock,
      hhas.poolRunning, map_isSome_set_none hlt hhas.workers⟩, hlt, hrunning, hstopped⟩⟩
    simp only [threads, List.map_append]
    have hperm := (reduceOption_perm_set hworker).map Thread.id
    exact (hperm.append_left _).trans List.perm_middle
  · cases hstep
    -- `resize` drops empty places only
    have hall : index = numThreads := by omega
    have hempty : server.poolThreads.reduceOption = [] := by
      have hworkers := hhas.workers
      rw [hall, Nat.sub_self, List.replicate_zero, List.append_nil] at hworkers
      exact reduceOption_eq_nil hworkers
    have hperm := hserver.perm
    rw [threads, hempty] at hperm
    have hcleared : { server with poolThreads := [] }.Has false false false [] :=
      ⟨hhas.connections, hhas.clock, hhas.poolRunning, rfl⟩
    exact .returned hperm hcleared hrunning caller

theorem Sound.manage (hserver : server.Sound numThreads)
    (hstep : server.manage numThreads = some server') : server'.Sound numThreads := by
  have hagrees := hserver.agrees
  cases hmanager : server.manager with
  | idle =>
      rw [ServerThreads.manage, hmanager] at hstep
      cases hstep
  | startConnections => exact hserver.startConnections hmanager hstep
  | startClock => exact hserver.startClock hmanager hstep
  | startPool =>
      simp only [Agrees, hmanager] at hagrees
      obtain ⟨hhas, hflagged, hstopped⟩ := hagrees
      rw [ServerThreads.manage, hmanager] at hstep
      cases hstep
      exact ⟨hserver.perm, hserver.leaving, ⟨hhas.connections, hhas.clock, rfl, hhas.workers⟩,
        Nat.zero_le _, hflagged, hstopped⟩
  | startWorkers count => exact hserver.startWorkers hmanager hstep
  | testFailed caller => exact hserver.testFailed hmanager hstep
  | clearRunning caller =>
      simp only [Agrees, hmanager] at hagrees
      obtain ⟨hhas, hstopped⟩ := hagrees
      rw [ServerThreads.manage, hmanager] at hstep
      cases hstep
      exact ⟨hserver.perm, fun _ _ => .inl rfl, hhas.congr rfl rfl rfl rfl, rfl, hstopped⟩
  | joinConnections caller => exact hserver.joinConnections hmanager hstep
  | joinClock caller => exact hserver.joinClock hmanager hstep
  | stopPool caller => exact hserver.stopPool hmanager hstep
  | joinWorkers caller index => exact hserver.joinWorkers hmanager hstep
  | destroyThreads =>
      simp only [Agrees, hmanager] at hagrees
      obtain ⟨hhas, hrunning⟩ := hagrees
      rw [ServerThreads.manage, hmanager] at hstep
      simp only [hhas.threads_eq_nil, if_true] at hstep
      cases hstep
      exact ⟨hserver.perm, hserver.leaving, hhas.congr rfl rfl rfl rfl, hrunning⟩
  | destroyed =>
      rw [ServerThreads.manage, hmanager] at hstep
      cases hstep
  | invalidJoin =>
      rw [ServerThreads.manage, hmanager] at hstep
      cases hstep
  | terminated =>
      rw [ServerThreads.manage, hmanager] at hstep
      cases hstep

/-- A call in order: `stop` and the destructor do not find `_failed` left over from threads
that were joined before, and `start` does not find a thread that is still to join. -/
def Careful (server : ServerThreads) : ServerEvent → Prop
  | .start => server.connectionsLoopThread = none
  | .stop => server.failed = true → server.connectionsLoopThread.isSome = true
  | .destroy => server.failed = true → server.connectionsLoopThread.isSome = true
  | .manage => True
  | .connections _ => True
  | .clock => True
  | .worker _ => True
  | .workerBlocks _ => True
  | .clientUnblocks _ => True

instance (server : ServerThreads) (event : ServerEvent) :
    Decidable (server.Careful event) := by
  cases event <;> unfold Careful <;> infer_instance

theorem Sound.callStop (hserver : server.Sound numThreads) (hidle : server.manager = .idle)
    (hcareful : server.failed = true → server.connectionsLoopThread.isSome = true)
    (caller : StopCaller) : (server.callStop caller).Sound numThreads := by
  have hagrees := hserver.agrees
  simp only [Agrees, hidle] at hagrees
  obtain ⟨hhas, hflagged, hstopped⟩ | ⟨hhas, hrunning⟩ := hagrees
  · obtain hrunning | hfailed := hflagged
    · rw [ServerThreads.callStop, if_pos hrunning]
      exact ⟨hserver.perm, hserver.leaving, hhas.congr rfl rfl rfl rfl, hstopped⟩
    · unfold ServerThreads.callStop
      split
      · exact ⟨hserver.perm, hserver.leaving, hhas.congr rfl rfl rfl rfl, hstopped⟩
      · exact ⟨hserver.perm, hserver.leaving,
          .inl ⟨hhas.congr rfl rfl rfl rfl, hfailed, hstopped⟩⟩
  · rw [hhas.connections] at hcareful
    have hfailed : server.failed = false := by simpa using hcareful
    rw [ServerThreads.callStop, if_neg (by simp [hrunning])]
    exact ⟨hserver.perm, hserver.leaving,
      .inr ⟨hhas.congr rfl rfl rfl rfl, hrunning, hfailed⟩⟩

theorem Sound.step (hserver : server.Sound numThreads) {event : ServerEvent}
    (hstep : ServerStep numThreads server event server') (hcareful : server.Careful event) :
    server'.Sound numThreads := by
  unfold ServerStep at hstep
  cases event with
  | start =>
      simp only [ServerThreads.step] at hstep
      split at hstep
      · rename_i hidle
        cases hstep
        have hagrees := hserver.agrees
        simp only [Agrees, hidle.1] at hagrees
        obtain ⟨hhas, _⟩ | ⟨hhas, hrunning⟩ := hagrees
        · have hsome := hhas.connections
          rw [hcareful] at hsome
          cases hsome
        · refine ⟨hserver.perm, ?_, hhas.congr rfl rfl rfl rfl, .inl rfl, rfl⟩
          intro id hthread
          rw [show _ = none from hcareful] at hthread
          cases hthread
      · cases hstep
  | stop =>
      simp only [ServerThreads.step] at hstep
      split at hstep
      · rename_i hidle
        cases hstep
        exact hserver.callStop hidle hcareful .manager
      · cases hstep
  | destroy =>
      simp only [ServerThreads.step] at hstep
      split at hstep
      · rename_i hidle
        cases hstep
        exact hserver.callStop hidle hcareful .serverDestructor
      · cases hstep
  | manage => exact hserver.manage hstep
  | connections failure => exact hserver.connectionsLoop hstep
  | clock => exact hserver.clockLoop hstep
  | worker index => exact hserver.workerLoop hstep
  | workerBlocks index => exact hserver.workerBlocks hstep
  | clientUnblocks index => exact hserver.clientUnblocks hstep

theorem Sound.constructed : constructed.Sound numThreads := by
  refine ⟨.nil, ?_, .inr ⟨⟨rfl, rfl, rfl, rfl⟩, rfl⟩⟩
  intro id hthread
  cases hthread

theorem Sound.run
    (hrun : Reaches (Restricted (ServerStep numThreads) Careful) .constructed server) :
    server.Sound numThreads := by
  apply hrun.invariant .constructed
  intro source event target hsource hstep
  exact hsource.step hstep.1 hstep.2

end ServerThreads

/-- The managing thread is inside the block of a `stop`. -/
def ManagerPosition.Stopping : ManagerPosition → Prop
  | clearRunning _ => True
  | joinConnections _ => True
  | joinClock _ => True
  | stopPool caller => caller ≠ .poolDestructor
  | joinWorkers _ _ => True
  | _ => False

namespace ServerThreads

variable {numThreads : Nat} {server server' : ServerThreads}

/-- No join without a thread and no thread lost, every thread joined at most once and by
the end of the destructor exactly once, and nothing done by a `stop` after a `stop`. -/
structure SafeShutdown (server : ServerThreads) : Prop where
  joinable : server.manager ≠ .invalidJoin
  kept : server.manager ≠ .terminated
  atMostOnce : server.joined.Nodup
  exactlyOnce : server.manager = .destroyed →
    ∀ id < server.spawned, server.joined.count id = 1
  idempotent : server.stopped = true → ¬ server.manager.Stopping

theorem Agrees.not_stopping (hagrees : server.Agrees numThreads)
    (hstopped : server.stopped = true) : ¬ server.manager.Stopping := by
  intro hstopping
  unfold Agrees at hagrees
  cases hmanager : server.manager with
  | clearRunning caller =>
      rw [hmanager] at hagrees
      exact absurd hagrees.2 (by simp [hstopped])
  | joinConnections caller =>
      rw [hmanager] at hagrees
      exact absurd hagrees.2.2 (by simp [hstopped])
  | joinClock caller =>
      rw [hmanager] at hagrees
      exact absurd hagrees.2.2 (by simp [hstopped])
  | stopPool caller =>
      rw [hmanager] at hagrees hstopping
      obtain ⟨_, _, hnot⟩ | ⟨_, _, hcaller⟩ := hagrees
      · exact absurd hnot (by simp [hstopped])
      · exact hstopping hcaller
  | joinWorkers caller index =>
      rw [hmanager] at hagrees
      exact absurd hagrees.2.2.2 (by simp [hstopped])
  | _ =>
      rw [hmanager] at hstopping
      exact hstopping

theorem Sound.safeShutdown (hserver : server.Sound numThreads) : server.SafeShutdown := by
  have hagrees := hserver.agrees
  have hnodup := hserver.perm.nodup_iff.mpr List.nodup_range
  refine ⟨?_, ?_, (List.nodup_append.mp hnodup).1, ?_, hagrees.not_stopping⟩
  · intro hmanager
    simp only [Agrees, hmanager] at hagrees
  · intro hmanager
    simp only [Agrees, hmanager] at hagrees
  · intro hmanager id hid
    simp only [Agrees, hmanager] at hagrees
    have hperm := hserver.perm
    rw [hagrees.1.threads_eq_nil, List.map_nil, List.append_nil] at hperm hnodup
    exact List.count_eq_one_of_mem hnodup (hperm.mem_iff.mpr (List.mem_range.mpr hid))

/-- `stop` finds `_failed` set and no thread to join. -/
theorem callStop_invalidJoin (hrunning : server.running = false)
    (hfailed : server.failed = true) (hnone : server.connectionsLoopThread = none)
    (caller : StopCaller) :
    ∃ broken, Reaches (ServerStep numThreads) (server.callStop caller) broken ∧
      broken.manager = .invalidJoin := by
  have htest : ServerStep numThreads (server.callStop caller) .manage
      { server with manager := .clearRunning caller } := by
    simp [ServerStep, ServerThreads.step, manage, ServerThreads.callStop, hrunning, hfailed]
  have hclear : ServerStep numThreads { server with manager := .clearRunning caller } .manage
      { server with running := false, manager := .joinConnections caller } := rfl
  have hjoin : ServerStep numThreads
      { server with running := false, manager := .joinConnections caller } .manage
      { server with running := false, manager := .invalidJoin } := by
    simp [ServerStep, ServerThreads.step, manage, join, hnone]
  exact ⟨_, ((Reaches.single htest).tail hclear).tail hjoin, rfl⟩

theorem Sound.exists_broken (hserver : server.Sound numThreads) {event : ServerEvent}
    (hstep : ServerStep numThreads server event server') (hcareful : ¬ server.Careful event) :
    ∃ broken, Reaches (ServerStep numThreads) server' broken ∧ ¬ broken.SafeShutdown := by
  have hstop : ∀ caller, server.manager = .idle →
      ¬ (server.failed = true → server.connectionsLoopThread.isSome = true) →
      ∃ broken, Reaches (ServerStep numThreads) (server.callStop caller) broken ∧
        ¬ broken.SafeShutdown := by
    intro caller hidle hleft
    rw [Classical.not_imp, Bool.not_eq_true] at hleft
    obtain ⟨hfailed, hconnections⟩ := hleft
    have hnone : server.connectionsLoopThread = none := by simpa using hconnections
    have hrunning : server.running = false := by
      have hagrees := hserver.agrees
      simp only [Agrees, hidle] at hagrees
      obtain ⟨hhas, _⟩ | ⟨_, hrunning⟩ := hagrees
      · have hsome := hhas.connections
        rw [hconnections] at hsome
        cases hsome
      · exact hrunning
    obtain ⟨broken, hreach, hbroken⟩ :=
      @callStop_invalidJoin numThreads server hrunning hfailed hnone caller
    exact ⟨broken, hreach, fun hsafe => hsafe.joinable hbroken⟩
  unfold ServerStep at hstep
  cases event with
  | start =>
      simp only [ServerThreads.step] at hstep
      split at hstep
      · cases hstep
        have hsome := Option.isSome_iff_ne_none.mpr hcareful
        have hlost : ServerStep numThreads
            { server with
              failed := false
              running := true
              manager := .startConnections
              stopped := false } .manage
            { server with
              failed := false
              running := true
              manager := .terminated
              stopped := false } := by
          simp [ServerStep, ServerThreads.step, ServerThreads.manage, hsome]
        exact ⟨_, .single hlost, fun hsafe => hsafe.kept rfl⟩
      · cases hstep
  | stop =>
      simp only [ServerThreads.step] at hstep
      split at hstep
      · rename_i hidle
        cases hstep
        exact hstop .manager hidle hcareful
      · cases hstep
  | destroy =>
      simp only [ServerThreads.step] at hstep
      split at hstep
      · rename_i hidle
        cases hstep
        exact hstop .serverDestructor hidle hcareful
      · cases hstep
  | manage => exact absurd trivial hcareful
  | connections failure => exact absurd trivial hcareful
  | clock => exact absurd trivial hcareful
  | worker index => exact absurd trivial hcareful
  | workerBlocks index => exact absurd trivial hcareful
  | clientUnblocks index => exact absurd trivial hcareful

end ServerThreads

/-- Shutdown is safe in every run whose calls are in order, and the first call that is
not in order leads to a join without a thread or to a lost one. -/
theorem shutdown_safe_while_careful {numThreads : Nat} {server : ServerThreads}
    (hrun : Reaches (Restricted (ServerStep numThreads) ServerThreads.Careful)
      .constructed server) :
    server.SafeShutdown ∧
      ∀ event server', ServerStep numThreads server event server' →
        ¬ server.Careful event →
        ∃ broken, Reaches (ServerStep numThreads) server' broken ∧ ¬ broken.SafeShutdown :=
  ⟨(ServerThreads.Sound.run hrun).safeShutdown,
    fun _ _ hstep hcareful => (ServerThreads.Sound.run hrun).exists_broken hstep hcareful⟩

/-- A start with one worker, and an error of `bind`. -/
def failedStart : List ServerEvent :=
  [.start, .manage, .manage, .manage, .manage, .manage, .connections true]

/-- The statements of a `stop` up to the last join, with the turns that it waits for. -/
def stopStatements : List ServerEvent :=
  [.manage, .manage, .clock, .manage, .manage, .worker 0, .manage, .manage]

def destroyFailed : List ServerEvent :=
  failedStart ++ .destroy :: stopStatements ++ [.manage, .manage]

def stopAndDestroyFailed : List ServerEvent :=
  failedStart ++ .stop :: stopStatements ++ [.destroy, .manage, .manage, .manage]

theorem shutdown_safe_while_careful_one_worker :
    ∃ server, Reaches (Restricted (ServerStep 1) ServerThreads.Careful) .constructed server ∧
      server.manager = .destroyed ∧ server.spawned = 3 ∧ server.SafeShutdown := by
  have hend : (destroyFailed.foldlM
      (fun (server : ServerThreads) event =>
        if server.Careful event then server.step 1 event else none)
      ServerThreads.constructed).map (fun server => (server.manager, server.spawned)) =
        some (.destroyed, 3) := by
    decide
  obtain ⟨server, hserver, hpair⟩ := Option.map_eq_some_iff.mp hend
  have hrun : Reaches (Restricted (ServerStep 1) ServerThreads.Careful) .constructed server := by
    apply Reaches.of_foldlM _ hserver
    intro source event target hstep
    split at hstep
    · rename_i hcareful
      exact ⟨hstep, hcareful⟩
    · cases hstep
  rw [Prod.mk.injEq] at hpair
  exact ⟨server, hrun, hpair.1, hpair.2, (shutdown_safe_while_careful hrun).1⟩

/-- A server that failed and was stopped is destroyed. -/
theorem destroy_after_failure_not_safe :
    ∃ server, Reaches (ServerStep 1) .constructed server ∧ server.manager = .invalidJoin ∧
      ¬ server.SafeShutdown := by
  have hend : (stopAndDestroyFailed.foldlM (ServerThreads.step 1)
      ServerThreads.constructed).map ServerThreads.manager = some .invalidJoin := by
    decide
  obtain ⟨server, hserver, hmanager⟩ := Option.map_eq_some_iff.mp hend
  exact ⟨server, .of_foldlM (fun hstep => hstep) hserver, hmanager,
    fun hsafe => hsafe.joinable hmanager⟩

end VotingSystem.Server
