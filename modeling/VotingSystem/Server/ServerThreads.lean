import Mathlib.Data.List.ReduceOption

namespace VotingSystem.Server

/-! `Server::start`, `Server::stop` and the destructor, beside the threads that they
start. A thread is known by its number in the order of their starts. -/

/-- Where a thread is. All of them loop, only `connectionsLoop` binds first and writes
`_running` last, and only a worker of the pool is `blocked`: inside a `recv` or a `send`
that waits for the client of its connection. -/
inductive ThreadPosition
  | binding
  | testing
  | tested
  | body
  | blocked
  | leaving
  | finished
  deriving DecidableEq

structure Thread where
  id : Nat
  position : ThreadPosition
  deriving DecidableEq

/-- Whose call of a `stop` is running: the manager's, that of the destructor of the
server, or that of the destructor of its pool. -/
inductive StopCaller
  | manager
  | serverDestructor
  | poolDestructor
  deriving DecidableEq

/-- The statement that the managing thread comes to next. `invalidJoin` is the error of
a `join` without a thread, and `terminated` the loss of a thread that was not joined. -/
inductive ManagerPosition
  | idle
  | startConnections
  | startClock
  | startPool
  | startWorkers (count : Nat)
  | testFailed (caller : StopCaller)
  | clearRunning (caller : StopCaller)
  | joinConnections (caller : StopCaller)
  | joinClock (caller : StopCaller)
  | stopPool (caller : StopCaller)
  | joinWorkers (caller : StopCaller) (index : Nat)
  | destroyThreads
  | destroyed
  | invalidJoin
  | terminated
  deriving DecidableEq

/-- A `std::thread` is the thread it stands for, if it is joinable. `spawned` counts the
threads that were started, `joined` keeps those that were joined, and `stopped` says that
a `stop` has come to its end since the last start. -/
structure ServerThreads where
  running : Bool
  failed : Bool
  connectionsLoopThread : Option Thread
  clockThread : Option Thread
  poolRunning : Bool
  poolThreads : List (Option Thread)
  manager : ManagerPosition
  spawned : Nat
  joined : List Nat
  stopped : Bool
  deriving DecidableEq

inductive ServerEvent
  | start
  | stop
  | destroy
  | manage
  | connections (failure : Bool)
  | clock
  | worker (index : Nat)
  | workerBlocks (index : Nat)
  | clientUnblocks (index : Nat)
  deriving DecidableEq

namespace ServerThreads

def constructed : ServerThreads where
  running := false
  failed := false
  connectionsLoopThread := none
  clockThread := none
  poolRunning := false
  poolThreads := []
  manager := .idle
  spawned := 0
  joined := []
  stopped := false

/-- The threads that are not joined yet. -/
def threads (server : ServerThreads) : List Thread :=
  server.connectionsLoopThread.toList ++ server.clockThread.toList ++
    server.poolThreads.reduceOption

/-- The two reads of `stop`, the second in `manage`. -/
def callStop (server : ServerThreads) (caller : StopCaller) : ServerThreads :=
  if server.running then { server with manager := .clearRunning caller }
  else { server with manager := .testFailed caller }

/-- What comes after a `stop`. -/
def returned (server : ServerThreads) : StopCaller → ServerThreads
  | .manager => { server with manager := .idle, stopped := true }
  | .serverDestructor => { server with manager := .stopPool .poolDestructor }
  | .poolDestructor => { server with manager := .destroyThreads }

/-- `join`, which waits for the end of the thread. -/
def join (server : ServerThreads) (thread : Option Thread) (next : ServerThreads) :
    Option ServerThreads :=
  match thread with
  | none => some { server with manager := .invalidJoin }
  | some thread =>
      if thread.position = .finished then
        some { next with joined := server.joined ++ [thread.id] }
      else none

/-- The next statement of the call that the managing thread is in. -/
def manage (numThreads : Nat) (server : ServerThreads) : Option ServerThreads :=
  match server.manager with
  | .idle => none
  | .startConnections =>
      if server.connectionsLoopThread.isSome then some { server with manager := .terminated }
      else some { server with
        connectionsLoopThread := some ⟨server.spawned, .binding⟩
        spawned := server.spawned + 1
        manager := .startClock }
  | .startClock =>
      if server.clockThread.isSome then some { server with manager := .terminated }
      else some { server with
        clockThread := some ⟨server.spawned, .testing⟩
        spawned := server.spawned + 1
        manager := .startPool }
  | .startPool => some { server with poolRunning := true, manager := .startWorkers 0 }
  | .startWorkers count =>
      if count < numThreads then some { server with
        poolThreads := server.poolThreads ++ [some ⟨server.spawned, .testing⟩]
        spawned := server.spawned + 1
        manager := .startWorkers (count + 1) }
      else some { server with manager := .idle }
  | .testFailed caller =>
      if server.failed then some { server with manager := .clearRunning caller }
      else some (server.returned caller)
  | .clearRunning caller =>
      some { server with running := false, manager := .joinConnections caller }
  | .joinConnections caller =>
      server.join server.connectionsLoopThread
        { server with connectionsLoopThread := none, manager := .joinClock caller }
  | .joinClock caller =>
      server.join server.clockThread
        { server with clockThread := none, manager := .stopPool caller }
  | .stopPool caller =>
      if server.poolRunning then
        some { server with poolRunning := false, manager := .joinWorkers caller 0 }
      else some (server.returned caller)
  | .joinWorkers caller index =>
      if index < numThreads then
        server.join server.poolThreads[index]?.join
          { server with
            poolThreads := server.poolThreads.set index none
            manager := .joinWorkers caller (index + 1) }
      else some ({ server with poolThreads := [] }.returned caller)
  | .destroyThreads =>
      if server.threads = [] then some { server with manager := .destroyed }
      else some { server with manager := .terminated }
  | .destroyed => none
  | .invalidJoin => none
  | .terminated => none

/-- A turn of `connectionsLoop`, where `failure` is an error of `bind`, `select` or
`accept`. After the one of `bind`, `_running` stays set. -/
def connectionsLoop (server : ServerThreads) (failure : Bool) : Option ServerThreads :=
  match server.connectionsLoopThread with
  | none => none
  | some ⟨id, .binding⟩ =>
      if failure then some { server with
        connectionsLoopThread := some ⟨id, .finished⟩
        failed := true }
      else some { server with connectionsLoopThread := some ⟨id, .testing⟩ }
  | some ⟨id, .testing⟩ =>
      if server.running then some { server with connectionsLoopThread := some ⟨id, .tested⟩ }
      else some { server with connectionsLoopThread := some ⟨id, .leaving⟩ }
  | some ⟨id, .tested⟩ =>
      if server.failed then some { server with connectionsLoopThread := some ⟨id, .leaving⟩ }
      else some { server with connectionsLoopThread := some ⟨id, .body⟩ }
  | some ⟨id, .body⟩ => some { server with
      connectionsLoopThread := some ⟨id, .testing⟩
      failed := server.failed || failure }
  | some ⟨id, .leaving⟩ => some { server with
      connectionsLoopThread := some ⟨id, .finished⟩
      running := false }
  | some ⟨_, .blocked⟩ => none
  | some ⟨_, .finished⟩ => none

def clockLoop (server : ServerThreads) : Option ServerThreads :=
  match server.clockThread with
  | some ⟨id, .testing⟩ =>
      if server.running then some { server with clockThread := some ⟨id, .tested⟩ }
      else some { server with clockThread := some ⟨id, .finished⟩ }
  | some ⟨id, .tested⟩ =>
      if server.failed then some { server with clockThread := some ⟨id, .finished⟩ }
      else some { server with clockThread := some ⟨id, .body⟩ }
  | some ⟨id, .body⟩ => some { server with clockThread := some ⟨id, .testing⟩ }
  | _ => none

/-- A turn of a worker of the pool, whose `_running` is another one. The turn that ends
the body is not possible while a `recv` or a `send` waits. -/
def workerLoop (server : ServerThreads) (index : Nat) : Option ServerThreads :=
  match server.poolThreads[index]? with
  | some (some ⟨id, .testing⟩) =>
      if server.poolRunning then some { server with
        poolThreads := server.poolThreads.set index (some ⟨id, .body⟩) }
      else some { server with
        poolThreads := server.poolThreads.set index (some ⟨id, .finished⟩) }
  | some (some ⟨id, .body⟩) => some { server with
      poolThreads := server.poolThreads.set index (some ⟨id, .testing⟩) }
  | _ => none

/-- `recv` returns when bytes of the client arrive, and `send` when there is room for those
of the server. Both wait without a timeout until then. -/
def workerBlocks (server : ServerThreads) (index : Nat) : Option ServerThreads :=
  match server.poolThreads[index]? with
  | some (some ⟨id, .body⟩) => some { server with
      poolThreads := server.poolThreads.set index (some ⟨id, .blocked⟩) }
  | _ => none

/-- The client sends, reads or goes away, and the worker goes on in its body. -/
def clientUnblocks (server : ServerThreads) (index : Nat) : Option ServerThreads :=
  match server.poolThreads[index]? with
  | some (some ⟨id, .blocked⟩) => some { server with
      poolThreads := server.poolThreads.set index (some ⟨id, .body⟩) }
  | _ => none

/-- The managing thread makes its calls one after another, and `start` only when no
thread is running, so that nothing sees the moment between its two flags. -/
def step (numThreads : Nat) (server : ServerThreads) : ServerEvent → Option ServerThreads
  | .start =>
      if server.manager = .idle ∧ ∀ thread ∈ server.threads, thread.position = .finished then
        some { server with
          failed := false
          running := true
          manager := .startConnections
          stopped := false }
      else none
  | .stop => if server.manager = .idle then some (server.callStop .manager) else none
  | .destroy =>
      if server.manager = .idle then some (server.callStop .serverDestructor) else none
  | .manage => server.manage numThreads
  | .connections failure => server.connectionsLoop failure
  | .clock => server.clockLoop
  | .worker index => server.workerLoop index
  | .workerBlocks index => server.workerBlocks index
  | .clientUnblocks index => server.clientUnblocks index

end ServerThreads

/-- Any interleaving of the calls of the managing thread and of the threads' turns. A read
or a write of a flag is one step. -/
def ServerStep (numThreads : Nat) (source : ServerThreads) (event : ServerEvent)
    (target : ServerThreads) : Prop :=
  source.step numThreads event = some target

end VotingSystem.Server
