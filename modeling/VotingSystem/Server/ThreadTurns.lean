import VotingSystem.Data.Slots
import VotingSystem.Server.ServerThreads

namespace VotingSystem.Server

open VotingSystem.Data

namespace ServerThreads

variable {numThreads : Nat} {server server' : ServerThreads}

/-! Which threads are joinable at each statement of the managing thread. -/

structure Has (server : ServerThreads) (connections clock poolRunning : Bool)
    (workers : List Bool) : Prop where
  connections : server.connectionsLoopThread.isSome = connections
  clock : server.clockThread.isSome = clock
  poolRunning : server.poolRunning = poolRunning
  workers : server.poolThreads.map Option.isSome = workers

/-- One of the two flags tells that there are threads to join. -/
def Flagged (server : ServerThreads) : Prop := server.running = true ∨ server.failed = true

def Agrees (numThreads : Nat) (server : ServerThreads) : Prop :=
  match server.manager with
  | .idle =>
      (server.Has true true true (List.replicate numThreads true) ∧ server.Flagged ∧
        server.stopped = false) ∨
      (server.Has false false false [] ∧ server.running = false)
  | .startConnections =>
      server.Has false false false [] ∧ server.Flagged ∧ server.stopped = false
  | .startClock =>
      server.Has true false false [] ∧ server.Flagged ∧ server.stopped = false
  | .startPool =>
      server.Has true true false [] ∧ server.Flagged ∧ server.stopped = false
  | .startWorkers count =>
      server.Has true true true (List.replicate count true) ∧ count ≤ numThreads ∧
        server.Flagged ∧ server.stopped = false
  | .testFailed _ =>
      (server.Has true true true (List.replicate numThreads true) ∧ server.failed = true ∧
        server.stopped = false) ∨
      (server.Has false false false [] ∧ server.running = false ∧ server.failed = false)
  | .clearRunning _ =>
      server.Has true true true (List.replicate numThreads true) ∧ server.stopped = false
  | .joinConnections _ =>
      server.Has true true true (List.replicate numThreads true) ∧ server.running = false ∧
        server.stopped = false
  | .joinClock _ =>
      server.Has false true true (List.replicate numThreads true) ∧ server.running = false ∧
        server.stopped = false
  | .stopPool caller =>
      (server.Has false false true (List.replicate numThreads true) ∧
        server.running = false ∧ server.stopped = false) ∨
      (server.Has false false false [] ∧ server.running = false ∧ caller = .poolDestructor)
  | .joinWorkers _ index =>
      server.Has false false false
          (List.replicate index false ++ List.replicate (numThreads - index) true) ∧
        index ≤ numThreads ∧ server.running = false ∧ server.stopped = false
  | .destroyThreads => server.Has false false false [] ∧ server.running = false
  | .destroyed => server.Has false false false [] ∧ server.running = false
  | .invalidJoin => False
  | .terminated => False

/-- Each thread is either joined or joinable, and never both. -/
structure Sound (numThreads : Nat) (server : ServerThreads) : Prop where
  perm : (server.joined ++ server.threads.map Thread.id).Perm (List.range server.spawned)
  leaving : ∀ id, server.connectionsLoopThread = some ⟨id, .leaving⟩ →
    server.running = false ∨ server.failed = true
  agrees : server.Agrees numThreads

/-! The turns of the threads. -/

/-- What a turn of a thread keeps, and how it changes the flags. -/
structure Turn (server server' : ServerThreads) : Prop where
  manager : server'.manager = server.manager
  stopped : server'.stopped = server.stopped
  joined : server'.joined = server.joined
  spawned : server'.spawned = server.spawned
  ids : server'.threads.map Thread.id = server.threads.map Thread.id
  connections : server'.connectionsLoopThread.isSome = server.connectionsLoopThread.isSome
  clock : server'.clockThread.isSome = server.clockThread.isSome
  poolRunning : server'.poolRunning = server.poolRunning
  workers : server'.poolThreads.map Option.isSome = server.poolThreads.map Option.isSome
  running : server.running = false → server'.running = false
  failed : server.failed = true → server'.failed = true
  flagged : server.Flagged → server'.Flagged
  unchanged : server.connectionsLoopThread = none → server'.failed = server.failed

theorem Has.turn (hturn : Turn server server') {connections clock poolRunning : Bool}
    {workers : List Bool} (hhas : server.Has connections clock poolRunning workers) :
    server'.Has connections clock poolRunning workers := by
  refine ⟨?_, ?_, ?_, ?_⟩
  · rw [hturn.connections, hhas.connections]
  · rw [hturn.clock, hhas.clock]
  · rw [hturn.poolRunning, hhas.poolRunning]
  · rw [hturn.workers, hhas.workers]

theorem Has.connections_eq_none {clock poolRunning : Bool} {workers : List Bool}
    (hhas : server.Has false clock poolRunning workers) :
    server.connectionsLoopThread = none := by
  simpa using hhas.connections

theorem Agrees.turn (hturn : Turn server server') (hagrees : server.Agrees numThreads) :
    server'.Agrees numThreads := by
  unfold Agrees at hagrees ⊢
  rw [hturn.manager, hturn.stopped]
  cases hmanager : server.manager with
  | idle =>
      rw [hmanager] at hagrees
      obtain ⟨hhas, hflagged, hstopped⟩ | ⟨hhas, hrunning⟩ := hagrees
      · exact .inl ⟨hhas.turn hturn, hturn.flagged hflagged, hstopped⟩
      · exact .inr ⟨hhas.turn hturn, hturn.running hrunning⟩
  | startConnections =>
      rw [hmanager] at hagrees
      exact ⟨hagrees.1.turn hturn, hturn.flagged hagrees.2.1, hagrees.2.2⟩
  | startClock =>
      rw [hmanager] at hagrees
      exact ⟨hagrees.1.turn hturn, hturn.flagged hagrees.2.1, hagrees.2.2⟩
  | startPool =>
      rw [hmanager] at hagrees
      exact ⟨hagrees.1.turn hturn, hturn.flagged hagrees.2.1, hagrees.2.2⟩
  | startWorkers count =>
      rw [hmanager] at hagrees
      obtain ⟨hhas, hcount, hflagged, hstopped⟩ := hagrees
      exact ⟨hhas.turn hturn, hcount, hturn.flagged hflagged, hstopped⟩
  | testFailed caller =>
      rw [hmanager] at hagrees
      obtain ⟨hhas, hfailed, hstopped⟩ | ⟨hhas, hrunning, hfailed⟩ := hagrees
      · exact .inl ⟨hhas.turn hturn, hturn.failed hfailed, hstopped⟩
      · refine .inr ⟨hhas.turn hturn, hturn.running hrunning, ?_⟩
        rw [hturn.unchanged hhas.connections_eq_none, hfailed]
  | clearRunning caller =>
      rw [hmanager] at hagrees
      exact ⟨hagrees.1.turn hturn, hagrees.2⟩
  | joinConnections caller =>
      rw [hmanager] at hagrees
      exact ⟨hagrees.1.turn hturn, hturn.running hagrees.2.1, hagrees.2.2⟩
  | joinClock caller =>
      rw [hmanager] at hagrees
      exact ⟨hagrees.1.turn hturn, hturn.running hagrees.2.1, hagrees.2.2⟩
  | stopPool caller =>
      rw [hmanager] at hagrees
      obtain ⟨hhas, hrunning, hstopped⟩ | ⟨hhas, hrunning, hcaller⟩ := hagrees
      · exact .inl ⟨hhas.turn hturn, hturn.running hrunning, hstopped⟩
      · exact .inr ⟨hhas.turn hturn, hturn.running hrunning, hcaller⟩
  | joinWorkers caller index =>
      rw [hmanager] at hagrees
      obtain ⟨hhas, hindex, hrunning, hstopped⟩ := hagrees
      exact ⟨hhas.turn hturn, hindex, hturn.running hrunning, hstopped⟩
  | destroyThreads =>
      rw [hmanager] at hagrees
      exact ⟨hagrees.1.turn hturn, hturn.running hagrees.2⟩
  | destroyed =>
      rw [hmanager] at hagrees
      exact ⟨hagrees.1.turn hturn, hturn.running hagrees.2⟩
  | invalidJoin =>
      rw [hmanager] at hagrees
      exact hagrees
  | terminated =>
      rw [hmanager] at hagrees
      exact hagrees

theorem Sound.turn (hserver : server.Sound numThreads) (hturn : Turn server server')
    (hleaving : ∀ id, server'.connectionsLoopThread = some ⟨id, .leaving⟩ →
      server'.running = false ∨ server'.failed = true) : server'.Sound numThreads := by
  refine ⟨?_, hleaving, hserver.agrees.turn hturn⟩
  rw [hturn.joined, hturn.ids, hturn.spawned]
  exact hserver.perm

theorem Turn.connections_mk {id : Nat} {position : ThreadPosition}
    (hthread : server.connectionsLoopThread = some ⟨id, position⟩)
    (position' : ThreadPosition) {running failed : Bool}
    (hrunning : server.running = false → running = false)
    (hfailed : server.failed = true → failed = true)
    (hflagged : server.Flagged → running = true ∨ failed = true) :
    Turn server { server with
      connectionsLoopThread := some ⟨id, position'⟩
      running := running
      failed := failed } := by
  refine ⟨rfl, rfl, rfl, rfl, ?_, ?_, rfl, rfl, rfl, hrunning, hfailed, hflagged, ?_⟩
  · simp only [threads, hthread, Option.toList_some, List.map_append, List.map_cons]
  · rw [hthread, Option.isSome_some, Option.isSome_some]
  · intro hnone
    rw [hthread] at hnone
    cases hnone

theorem Turn.clock_mk {id : Nat} {position : ThreadPosition}
    (hthread : server.clockThread = some ⟨id, position⟩) (position' : ThreadPosition) :
    Turn server { server with clockThread := some ⟨id, position'⟩ } := by
  refine ⟨rfl, rfl, rfl, rfl, ?_, rfl, ?_, rfl, rfl, fun h => h, fun h => h, fun h => h,
    fun _ => rfl⟩
  · simp only [threads, hthread, Option.toList_some, List.map_append, List.map_cons]
  · rw [hthread, Option.isSome_some, Option.isSome_some]

theorem Turn.worker_mk {index id : Nat} {position : ThreadPosition}
    (hthread : server.poolThreads[index]? = some (some ⟨id, position⟩))
    (position' : ThreadPosition) :
    Turn server { server with
      poolThreads := server.poolThreads.set index (some ⟨id, position'⟩) } := by
  have hids : (server.poolThreads.set index (some ⟨id, position'⟩)).reduceOption.map
      Thread.id = server.poolThreads.reduceOption.map Thread.id :=
    map_reduceOption_set hthread rfl
  refine ⟨rfl, rfl, rfl, rfl, ?_, rfl, rfl, rfl, map_isSome_set hthread _, fun h => h,
    fun h => h, fun h => h, fun _ => rfl⟩
  simp only [threads, List.map_append, hids]

theorem Sound.connectionsLoop (hserver : server.Sound numThreads) {failure : Bool}
    (hstep : server.connectionsLoop failure = some server') :
    server'.Sound numThreads := by
  unfold ServerThreads.connectionsLoop at hstep
  split at hstep
  · cases hstep
  · rename_i id hthread
    -- `bind`
    split at hstep
    · cases hstep
      apply hserver.turn (.connections_mk hthread .finished (fun h => h) (fun _ => rfl)
        (fun _ => .inr rfl))
      simp
    · cases hstep
      apply hserver.turn (.connections_mk hthread .testing (fun h => h) (fun h => h)
        (fun h => h))
      simp
  · rename_i id hthread
    -- the loop reads `_running`
    split at hstep
    · cases hstep
      apply hserver.turn (.connections_mk hthread .tested (fun h => h) (fun h => h)
        (fun h => h))
      simp
    · rename_i hrunning
      cases hstep
      apply hserver.turn (.connections_mk hthread .leaving (fun h => h) (fun h => h)
        (fun h => h))
      intro _ _
      exact .inl (by simpa using hrunning)
  · rename_i id hthread
    -- the loop reads `_failed`
    split at hstep
    · rename_i hfailed
      cases hstep
      apply hserver.turn (.connections_mk hthread .leaving (fun h => h) (fun h => h)
        (fun h => h))
      intro _ _
      exact .inr hfailed
    · cases hstep
      apply hserver.turn (.connections_mk hthread .body (fun h => h) (fun h => h)
        (fun h => h))
      simp
  · rename_i id hthread
    cases hstep
    apply hserver.turn (.connections_mk hthread .testing (fun h => h) _ _)
    · simp
    · intro hfailed
      rw [hfailed, Bool.true_or]
    · intro hflagged
      exact hflagged.imp_right fun hfailed => by rw [hfailed, Bool.true_or]
  · rename_i id hthread
    cases hstep
    apply hserver.turn (.connections_mk hthread .finished (fun _ => rfl) (fun h => h) _)
    · simp
    · -- the loop was left because of one of the flags
      intro hflagged
      obtain hrunning | hfailed := hserver.leaving id hthread
      · exact .inr (hflagged.resolve_left (by simp [hrunning]))
      · exact .inr hfailed
  · cases hstep
  · cases hstep

theorem Sound.clockLoop (hserver : server.Sound numThreads)
    (hstep : server.clockLoop = some server') : server'.Sound numThreads := by
  unfold ServerThreads.clockLoop at hstep
  split at hstep
  · rename_i id hthread
    split at hstep
    · cases hstep
      exact hserver.turn (.clock_mk hthread .tested) hserver.leaving
    · cases hstep
      exact hserver.turn (.clock_mk hthread .finished) hserver.leaving
  · rename_i id hthread
    split at hstep
    · cases hstep
      exact hserver.turn (.clock_mk hthread .finished) hserver.leaving
    · cases hstep
      exact hserver.turn (.clock_mk hthread .body) hserver.leaving
  · rename_i id hthread
    cases hstep
    exact hserver.turn (.clock_mk hthread .testing) hserver.leaving
  · cases hstep

theorem Sound.workerLoop (hserver : server.Sound numThreads) {index : Nat}
    (hstep : server.workerLoop index = some server') : server'.Sound numThreads := by
  unfold ServerThreads.workerLoop at hstep
  split at hstep
  · rename_i id hthread
    split at hstep
    · cases hstep
      exact hserver.turn (.worker_mk hthread .body) hserver.leaving
    · cases hstep
      exact hserver.turn (.worker_mk hthread .finished) hserver.leaving
  · rename_i id hthread
    cases hstep
    exact hserver.turn (.worker_mk hthread .testing) hserver.leaving
  · cases hstep

theorem Sound.workerBlocks (hserver : server.Sound numThreads) {index : Nat}
    (hstep : server.workerBlocks index = some server') : server'.Sound numThreads := by
  unfold ServerThreads.workerBlocks at hstep
  split at hstep
  · rename_i id hthread
    cases hstep
    exact hserver.turn (.worker_mk hthread .blocked) hserver.leaving
  · cases hstep

theorem Sound.clientUnblocks (hserver : server.Sound numThreads) {index : Nat}
    (hstep : server.clientUnblocks index = some server') : server'.Sound numThreads := by
  unfold ServerThreads.clientUnblocks at hstep
  split at hstep
  · rename_i id hthread
    cases hstep
    exact hserver.turn (.worker_mk hthread .body) hserver.leaving
  · cases hstep

end ServerThreads

end VotingSystem.Server
