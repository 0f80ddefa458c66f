import VotingSystem.Server.Conversation
import VotingSystem.Server.Network

namespace VotingSystem.Server

open VotingSystem.Data VotingSystem.Storage

/-! Workers that wait for clients that send nothing. -/

section Silence

variable {Store : Type} {answers : Store → Bytes → Option Bytes → Store → Prop}

/-- The turns of the workers. -/
def PoolEvent.OfWorker : PoolEvent → Prop
  | .newConnection _ => False
  | .command _ _ => False
  | .client _ => False
  | _ => True

/-- Every worker waits for bytes of a connection that has none. -/
def PoolWorld.Silent (world : PoolWorld Store) : Prop :=
  ∀ worker ∈ world.workers, worker.AwaitsBytes ∧
    ∀ sock, worker.sock? = some sock → (world.connections sock).arrived = []

/-- Nobody sends on the connections of the workers, and none of them fails. -/
def Untouched (workers : List Worker) (_ : PoolWorld Store) : PoolEvent → Prop
  | .client sock => ∀ worker ∈ workers, worker.sock? ≠ some sock
  | .socketError sock => ∀ worker ∈ workers, worker.sock? ≠ some sock
  | _ => True

/-- What is left of a pool whose workers all wait. -/
structure StoppedPool (world world' : PoolWorld Store) : Prop where
  workers : world'.workers = world.workers
  queue : world.queue <+: world'.queue
  served : ∀ sock, (world'.connections sock).served = (world.connections sock).served
  silent : world'.Silent

namespace StoppedPool

variable {world middle world' : PoolWorld Store}

theorem refl (hsilent : world.Silent) : StoppedPool world world :=
  ⟨rfl, List.prefix_rfl, fun _ => rfl, hsilent⟩

/-- The worker of a step waits for bytes. -/
theorem awaits (hstopped : StoppedPool world middle) {worker : Worker} {front back : List Worker}
    (hworkers : middle.workers = front ++ worker :: back) :
    worker.AwaitsBytes ∧
      ∀ sock, worker.sock? = some sock → (middle.connections sock).arrived = [] :=
  hstopped.silent worker (by simp [hworkers])

/-- A connection changes, but not in what its worker waits for. -/
theorem setConnection (hstopped : StoppedPool world middle) {sock : Nat} {conn : Connection}
    (hserved : conn.served = (middle.connections sock).served)
    (harrived : (∃ worker ∈ world.workers, worker.sock? = some sock) →
      conn.arrived = (middle.connections sock).arrived) :
    StoppedPool world (middle.setConnection sock conn) where
  workers := hstopped.workers
  queue := hstopped.queue
  served := by
    intro other
    by_cases hother : other = sock
    · subst hother
      rw [setConnection_same, hserved, hstopped.served]
    · rw [setConnection_other _ _ (Ne.symm hother), hstopped.served]
  silent := by
    intro worker hworker
    obtain ⟨hawaits, hempty⟩ := hstopped.silent worker hworker
    refine ⟨hawaits, fun other hsock => ?_⟩
    by_cases hother : other = sock
    · subst hother
      have hheld : ∃ worker ∈ world.workers, worker.sock? = some other :=
        ⟨worker, hstopped.workers ▸ hworker, hsock⟩
      rw [setConnection_same, harrived hheld, hempty other hsock]
    · rw [setConnection_other _ _ (Ne.symm hother), hempty other hsock]

/-- No step left is one of a worker. -/
theorem not_of_worker (hstopped : StoppedPool world middle) {event : PoolEvent}
    (hstep : PoolStep answers middle event world')
    (huntouched : Untouched world.workers middle event) : ¬ event.OfWorker := by
  cases hstep with
  | newConnection sock hnotOpen => exact id
  | pop sock queue front back hqueue hworkers => exact (hstopped.awaits hworkers).1.elim
  | transfer sock worker worker' conn front back hworkers htransfer =>
      obtain ⟨hawaits, hempty⟩ := hstopped.awaits hworkers
      exact absurd hawaits (htransfer.not_awaits (hempty sock htransfer.sock?_eq.1))
  | process sock msgBuf response store front back hworkers hanswers =>
      exact (hstopped.awaits hworkers).1.elim
  | noResponse sock msgBuf store front back hworkers hanswers =>
      exact (hstopped.awaits hworkers).1.elim
  | requeue sock front back hworkers => exact (hstopped.awaits hworkers).1.elim
  | socketError sock worker front back hworkers hsock hon =>
      have hheld : worker ∈ world.workers := by
        rw [← hstopped.workers, hworkers]
        simp
      exact absurd hsock (huntouched worker hheld)
  | tooLarge sock got front back hworkers hgot hsize =>
      exact absurd hgot (hstopped.awaits hworkers).1.ne
  | command sock message => exact id
  | client sock conn hturn => exact id

theorem step (hstopped : StoppedPool world middle) {event : PoolEvent}
    (hstep : PoolStep answers middle event world')
    (huntouched : Untouched world.workers middle event) : StoppedPool world world' := by
  have hothers := hstopped.not_of_worker hstep huntouched
  cases hstep with
  | newConnection sock hnotOpen =>
      exact ⟨hstopped.workers, hstopped.queue.trans (List.prefix_append _ _),
        hstopped.served, hstopped.silent⟩
  | command sock message => exact hstopped.setConnection rfl fun _ => rfl
  | client sock conn hturn =>
      apply hstopped.setConnection hturn.served_eq
      intro hheld
      obtain ⟨worker, hworker, hsock⟩ := hheld
      exact absurd hsock (huntouched worker hworker)
  | _ => exact absurd trivial hothers

end StoppedPool

/-! As many silent clients as workers. -/

/-- The pool after the first connections were popped. -/
def silentPool (store : Store) (numThreads connected : Nat) : PoolWorld Store where
  store := store
  queue := []
  workers := (List.range connected).map (.receiveSize · []) ++
    List.replicate (numThreads - connected) .idle
  handed := (List.range connected).reverse
  closed := []
  connections := fun _ => .fresh

theorem reaches_silentPool (store : Store) {numThreads connected : Nat}
    (hconnected : connected ≤ numThreads) :
    Reaches (Restricted (PoolStep answers) ProcessesNothing) (.start store numThreads)
      (silentPool store numThreads connected) := by
  induction connected with
  | zero => exact .refl
  | succ connected ih =>
      have hnew := @PoolStep.newConnection Store answers
        (silentPool store numThreads connected) connected (by simp [silentPool])
      have hidle : numThreads - connected = (numThreads - (connected + 1)) + 1 := by omega
      have hworkers : (silentPool store numThreads connected).workers =
          (List.range connected).map (.receiveSize · []) ++
            .idle :: List.replicate (numThreads - (connected + 1)) .idle := by
        rw [silentPool, hidle, List.replicate_succ]
      have hreached := ((ih (by omega)).tail ⟨hnew, by simp [ProcessesNothing]⟩).tail
        ⟨.pop _ connected [] _ _ rfl hworkers, by simp [ProcessesNothing]⟩
      simpa [silentPool, List.range_succ] using hreached

theorem silentPool_silent (store : Store) (numThreads : Nat) :
    (silentPool store numThreads numThreads).Silent := by
  intro worker hworker
  simp only [silentPool, Nat.sub_self, List.replicate_zero, List.append_nil, List.mem_map]
    at hworker
  obtain ⟨sock, _, rfl⟩ := hworker
  exact ⟨by simp [Worker.AwaitsBytes], fun _ _ => rfl⟩

end Silence

/-! The server around such a pool. -/

/-- What a turn of `clockLoop` that completes does to the tables. -/
def CompletedTick (config : Config) (db : Database) (_ : Unit) (db' : Database) : Prop :=
  generateTallies config db = some db'

def NetworkEvent.OfWorker : NetworkEvent → Prop
  | .pool event => event.OfWorker
  | .check _ => True
  | .commit _ _ => True
  | .advance _ => False
  | .tick => False

def UntouchedServer (workers : List Worker) (world : NetworkWorld) : NetworkEvent → Prop
  | .pool event => Untouched workers world.pool event
  | _ => True

/-- The workers wait, and only the clock changes the tables. -/
structure StoppedServer (config : Config) (world world' : NetworkWorld) : Prop where
  pool : StoppedPool world.pool world'.pool
  checked : world'.checked = []
  tables : Reaches (CompletedTick config) world.pool.store world'.pool.store

namespace StoppedServer

variable {lib : Libraries} {config : Config} {world middle world' : NetworkWorld}

/-- A worker that waits for bytes has no command to check or to commit. -/
theorem not_of_worker (hstopped : StoppedServer config world middle) {event : NetworkEvent}
    (hstep : NetworkStep lib config middle event world')
    (huntouched : UntouchedServer world.pool.workers middle event) : ¬ event.OfWorker := by
  cases hstep with
  | pool event pool hfree hstep => exact hstopped.pool.not_of_worker hstep huntouched
  | check sock msgBuf command pending hworker hfree hstores =>
      exact (hstopped.pool.silent _ hworker).1.elim
  | commit sock pending response pool hchecked hstep =>
      rw [hstopped.checked] at hchecked
      exact absurd hchecked List.not_mem_nil
  | advance later hlater => exact id
  | tick db hgenerate => exact id

theorem step (hstopped : StoppedServer config world middle) {event : NetworkEvent}
    (hstep : NetworkStep lib config middle event world')
    (huntouched : UntouchedServer world.pool.workers middle event) :
    StoppedServer config world world' := by
  have hothers := hstopped.not_of_worker hstep huntouched
  cases hstep with
  | pool event pool hfree hstep =>
      refine ⟨hstopped.pool.step hstep huntouched, hstopped.checked, ?_⟩
      rcases hstep.store_eq with hstore | ⟨sock, msgBuf, response, hevent, _⟩
      · rw [hstore]
        exact hstopped.tables
      · subst hevent
        exact absurd trivial hothers
  | advance later hlater => exact ⟨hstopped.pool, hstopped.checked, hstopped.tables⟩
  | tick db hgenerate =>
      obtain ⟨hworkers, hqueue, hserved, hsilent⟩ := hstopped.pool
      exact ⟨⟨hworkers, hqueue, hserved, hsilent⟩, hstopped.checked,
        hstopped.tables.tail (show CompletedTick config _ () db from hgenerate)⟩
  | _ => exact absurd trivial hothers

theorem run (hsilent : world.pool.Silent) (hchecked : world.checked = [])
    (hrun : Reaches (Restricted (NetworkStep lib config)
      (UntouchedServer world.pool.workers)) world world') :
    StoppedServer config world world' := by
  apply hrun.invariant ⟨.refl hsilent, hchecked, .refl⟩
  intro source event target hsource hstep
  exact hsource.step hstep.1 hstep.2

end StoppedServer

/-- As many connections as there are workers, on which nothing is ever sent, hold all
workers: whatever everybody else does from then on, no worker takes another step, so that no
command is processed, nothing is served to anybody, and connections only join the queue. Only
the clock goes on. -/
theorem silent_connections_hold_workers (lib : Libraries) (config : Config) (db : Database)
    (numThreads : Nat) (now : Int) :
    ∃ world, Reaches (NetworkStep lib config) (.start db numThreads now) world ∧
      world.pool.handed.length = numThreads ∧
        ∀ world', Reaches (Restricted (NetworkStep lib config)
            (UntouchedServer world.pool.workers)) world world' →
          StoppedServer config world world' ∧
            ∀ event later, NetworkStep lib config world' event later →
              UntouchedServer world.pool.workers world' event → ¬ event.OfWorker := by
  refine ⟨{ NetworkWorld.start db numThreads now with
    pool := silentPool db numThreads numThreads }, ?_, by simp [silentPool], ?_⟩
  · have hpool := @reaches_silentPool Database (answersOnly lib config now) db numThreads
      numThreads le_rfl
    exact (reaches_of_pool SmallElection.reference.key (.start db numThreads now)
      hpool).of_restricted
  · intro world' hrun
    have hstopped := StoppedServer.run (silentPool_silent db numThreads) rfl hrun
    exact ⟨hstopped, fun _ _ hstep huntouched => hstopped.not_of_worker hstep huntouched⟩

end VotingSystem.Server
