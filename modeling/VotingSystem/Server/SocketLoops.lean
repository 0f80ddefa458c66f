import VotingSystem.Data.Simulation
import VotingSystem.Server.Pool

namespace VotingSystem.Server

open VotingSystem.Data VotingSystem.Storage

/-! `socketRecv` and `socketSend` one call of the kernel at a time, and `threadLoop` around
them. The time is what `getCurrentTime` returns. -/

/-- `CONNECTIONS_LOOP_TIMEOUT_SEC`. -/
def connectionsLoopTimeoutSec : Int := 1

/-- The variables of `socketRecv`, with the filled part of the buffer. -/
structure RecvLoop (bufSize : Int) where
  time : Int
  buf : Bytes
  fits : buf.length ≤ bufSize.toNat

namespace RecvLoop

variable {bufSize : Int}

def enter (bufSize now : Int) : RecvLoop bufSize where
  time := now
  buf := []
  fits := Nat.zero_le _

def received (loop : RecvLoop bufSize) (chunk : Bytes)
    (hfits : loop.buf.length + chunk.length ≤ bufSize.toNat) : RecvLoop bufSize where
  time := loop.time
  buf := loop.buf ++ chunk
  fits := by rwa [List.length_append]

/-- The condition of the loop. -/
def Continues (loop : RecvLoop bufSize) : Prop := (loop.buf.length : Int) < bufSize

theorem length_of_not_continues {loop : RecvLoop bufSize} (hdone : ¬ loop.Continues) :
    loop.buf.length = bufSize.toNat := by
  have hfits := loop.fits
  unfold Continues at hdone
  omega

end RecvLoop

/-- One pass through the loop of `socketRecv`, with the bytes that wait on the socket
before and after it. `none` is a return of an error; `recv` returns zero when the other
side has closed the connection. -/
inductive RecvPass {bufSize : Int} (timeoutSec now : Int) (loop : RecvLoop bufSize)
    (arrived : Bytes) : Option (RecvLoop bufSize) → Bytes → Prop
  | failed (hcontinues : loop.Continues) :
      RecvPass timeoutSec now loop arrived none arrived
  | received (chunk rest : Bytes) (hcontinues : loop.Continues)
      (hfits : loop.buf.length + chunk.length ≤ bufSize.toNat)
      (harrived : arrived = chunk ++ rest) (hintime : now - loop.time ≤ timeoutSec) :
      RecvPass timeoutSec now loop arrived (some (loop.received chunk hfits)) rest
  | timeout (chunk rest : Bytes) (hcontinues : loop.Continues)
      (hfits : loop.buf.length + chunk.length ≤ bufSize.toNat)
      (harrived : arrived = chunk ++ rest) (hlate : timeoutSec < now - loop.time) :
      RecvPass timeoutSec now loop arrived none rest

/-- The variables of `socketSend`. -/
structure SendLoop (buf : Bytes) (bufSize : Int) where
  time : Int
  atByte : Nat
  fits : atByte ≤ bufSize.toNat

namespace SendLoop

variable {buf : Bytes} {bufSize : Int}

def enter (buf : Bytes) (bufSize now : Int) : SendLoop buf bufSize where
  time := now
  atByte := 0
  fits := Nat.zero_le _

def sent (loop : SendLoop buf bufSize) (count : Nat)
    (hfits : loop.atByte + count ≤ bufSize.toNat) : SendLoop buf bufSize where
  time := loop.time
  atByte := loop.atByte + count
  fits := hfits

/-- The condition of the loop. -/
def Continues (loop : SendLoop buf bufSize) : Prop := (loop.atByte : Int) < bufSize

def rest (loop : SendLoop buf bufSize) : Bytes := (buf.take bufSize.toNat).drop loop.atByte

theorem rest_of_not_continues {loop : SendLoop buf bufSize} (hdone : ¬ loop.Continues) :
    loop.rest = [] := by
  have hfits := loop.fits
  unfold Continues at hdone
  rw [rest, List.drop_eq_nil_iff, List.length_take]
  omega

theorem rest_eq_take_append (loop : SendLoop buf bufSize) (count : Nat)
    (hfits : loop.atByte + count ≤ bufSize.toNat) :
    loop.rest = loop.rest.take count ++ (loop.sent count hfits).rest := by
  rw [rest, rest, sent, ← List.drop_drop, List.take_append_drop]

end SendLoop

/-- One pass through the loop of `socketSend`, with the bytes it has handed to the kernel
before and after it. -/
inductive SendPass {buf : Bytes} {bufSize : Int} (timeoutSec now : Int)
    (loop : SendLoop buf bufSize) (returned : Bytes) :
    Option (SendLoop buf bufSize) → Bytes → Prop
  | failed (hcontinues : loop.Continues) :
      SendPass timeoutSec now loop returned none returned
  | sent (count : Nat) (hcontinues : loop.Continues)
      (hfits : loop.atByte + count ≤ bufSize.toNat)
      (hintime : now - loop.time ≤ timeoutSec) :
      SendPass timeoutSec now loop returned (some (loop.sent count hfits))
        (returned ++ loop.rest.take count)
  | timeout (count : Nat) (hcontinues : loop.Continues)
      (hfits : loop.atByte + count ≤ bufSize.toNat)
      (hlate : timeoutSec < now - loop.time) :
      SendPass timeoutSec now loop returned none (returned ++ loop.rest.take count)

/-- A size that is passed on as an `int`. -/
def intOfSize (size : Nat) : Int := Int.bmod size (2 ^ 32)

theorem intOfSize_toNat (size : Nat) : (intOfSize size).toNat = intSize size := by
  unfold intOfSize intSize Int.bmod
  by_cases hsmall : size % 2 ^ 32 < 2 ^ 31
  · rw [if_pos hsmall, if_pos (by omega)]
    omega
  · rw [if_neg hsmall, if_neg (by omega)]
    omega

/-- Where a thread of `threadLoop` is. -/
inductive LoopThread
  | waiting
  | receivingSize (sock : Nat) (loop : RecvLoop 4)
  | receivingData (sock msgLen : Nat) (loop : RecvLoop msgLen)
  | processing (sock : Nat) (msgBuf : Bytes)
  | sendingSize (sock : Nat) (response : Bytes)
      (loop : SendLoop (sizeBytes response.length) 4)
  | sendingData (sock : Nat) (response : Bytes)
      (loop : SendLoop response (intOfSize response.length))

namespace LoopThread

def worker : LoopThread → Worker
  | waiting => .idle
  | receivingSize sock loop => .receiveSize sock loop.buf
  | receivingData sock msgLen loop => .receiveData sock msgLen loop.buf
  | processing sock msgBuf => .process sock msgBuf
  | sendingSize sock response loop => .sendSize sock loop.rest response
  | sendingData sock _ loop => .sendData sock loop.rest

end LoopThread

structure LoopWorld (Store : Type) where
  store : Store
  queue : List Nat
  threads : List LoopThread
  handed : List Nat
  closed : List Nat
  connections : Nat → Connection
  now : Int

inductive LoopEvent
  | newConnection (sock : Nat)
  | pop (sock : Nat)
  | call (sock : Nat)
  | goOn (sock : Nat)
  | process (sock : Nat) (response : Option Bytes)
  | requeue (sock : Nat)
  | command (sock : Nat) (message : Bytes)
  | client (sock : Nat)
  | advance (later : Int)
  deriving DecidableEq

namespace LoopWorld

variable {Store : Type}

def start (store : Store) (numThreads : Nat) (now : Int) : LoopWorld Store where
  store := store
  queue := []
  threads := List.replicate numThreads .waiting
  handed := []
  closed := []
  connections := fun _ => .fresh
  now := now

def setConnection (world : LoopWorld Store) (sock : Nat) (conn : Connection) :
    LoopWorld Store :=
  { world with connections := Function.update world.connections sock conn }

/-- A thread after a call on its socket: it goes on, or closes the socket and drops the
connection. -/
def settle (world : LoopWorld Store) (sock : Nat) (conn : Connection)
    (front back : List LoopThread) : Option LoopThread → LoopWorld Store
  | some thread =>
      { world.setConnection sock conn with threads := front ++ thread :: back }
  | none =>
      { world.setConnection sock .fresh with
        closed := sock :: world.closed
        threads := front ++ .waiting :: back }

/-- The pool that the threads are the workers of. -/
def pool (world : LoopWorld Store) : PoolWorld Store where
  store := world.store
  queue := world.queue
  workers := world.threads.map LoopThread.worker
  handed := world.handed
  closed := world.closed
  connections := world.connections

end LoopWorld

inductive LoopStep {Store : Type} (answers : Store → Bytes → Option Bytes → Store → Prop) :
    LoopWorld Store → LoopEvent → LoopWorld Store → Prop
  | newConnection (world : LoopWorld Store) (sock : Nat)
      (hnotOpen : world.handed.count sock = world.closed.count sock) :
      LoopStep answers world (.newConnection sock)
        { world with
          queue := world.queue ++ [sock]
          handed := sock :: world.handed }
  | pop (world : LoopWorld Store) (sock : Nat) (queue : List Nat)
      (front back : List LoopThread) (hqueue : world.queue = sock :: queue)
      (hthreads : world.threads = front ++ .waiting :: back) :
      LoopStep answers world (.pop sock)
        { world with
          queue := queue
          threads := front ++ .receivingSize sock (.enter 4 world.now) :: back }
  | recvSize (world : LoopWorld Store) (sock : Nat) (loop : RecvLoop 4)
      (result : Option (RecvLoop 4)) (arrived : Bytes) (front back : List LoopThread)
      (hthreads : world.threads = front ++ .receivingSize sock loop :: back)
      (hpass : RecvPass connectionsLoopTimeoutSec world.now loop
        (world.connections sock).arrived result arrived) :
      LoopStep answers world (.call sock)
        (world.settle sock { world.connections sock with arrived := arrived } front back
          (result.map (.receivingSize sock)))
  | sizeReceived (world : LoopWorld Store) (sock : Nat) (loop : RecvLoop 4)
      (front back : List LoopThread)
      (hthreads : world.threads = front ++ .receivingSize sock loop :: back)
      (hdone : ¬ loop.Continues) :
      LoopStep answers world (.goOn sock)
        (world.settle sock (world.connections sock) front back
          (if maxSize < Bytes.bigEndian loop.buf then none
          else some (.receivingData sock (Bytes.bigEndian loop.buf) (.enter _ world.now))))
  | recvData (world : LoopWorld Store) (sock msgLen : Nat) (loop : RecvLoop msgLen)
      (result : Option (RecvLoop msgLen)) (arrived : Bytes) (front back : List LoopThread)
      (hthreads : world.threads = front ++ .receivingData sock msgLen loop :: back)
      (hpass : RecvPass connectionsLoopTimeoutSec world.now loop
        (world.connections sock).arrived result arrived) :
      LoopStep answers world (.call sock)
        (world.settle sock { world.connections sock with arrived := arrived } front back
          (result.map (.receivingData sock msgLen)))
  | dataReceived (world : LoopWorld Store) (sock msgLen : Nat) (loop : RecvLoop msgLen)
      (front back : List LoopThread)
      (hthreads : world.threads = front ++ .receivingData sock msgLen loop :: back)
      (hdone : ¬ loop.Continues) :
      LoopStep answers world (.goOn sock)
        { world with threads := front ++ .processing sock loop.buf :: back }
  | process (world : LoopWorld Store) (sock : Nat) (msgBuf response : Bytes) (store : Store)
      (front back : List LoopThread)
      (hthreads : world.threads = front ++ .processing sock msgBuf :: back)
      (hanswers : answers world.store msgBuf (some response) store) :
      LoopStep answers world (.process sock (some response))
        { world.setConnection sock
            { world.connections sock with
              served := (world.connections sock).served ++ [(msgBuf, response)] } with
          store := store
          threads := front ++ .sendingSize sock response (.enter _ 4 world.now) :: back }
  | noResponse (world : LoopWorld Store) (sock : Nat) (msgBuf : Bytes) (store : Store)
      (front back : List LoopThread)
      (hthreads : world.threads = front ++ .processing sock msgBuf :: back)
      (hanswers : answers world.store msgBuf none store) :
      LoopStep answers world (.process sock none)
        { world with
          store := store
          threads := front ++ .waiting :: back }
  | sendSize (world : LoopWorld Store) (sock : Nat) (response : Bytes)
      (loop : SendLoop (sizeBytes response.length) 4)
      (result : Option (SendLoop (sizeBytes response.length) 4)) (returned : Bytes)
      (front back : List LoopThread)
      (hthreads : world.threads = front ++ .sendingSize sock response loop :: back)
      (hpass : SendPass connectionsLoopTimeoutSec world.now loop
        (world.connections sock).returned result returned) :
      LoopStep answers world (.call sock)
        (world.settle sock { world.connections sock with returned := returned } front back
          (result.map (.sendingSize sock response)))
  | sizeSent (world : LoopWorld Store) (sock : Nat) (response : Bytes)
      (loop : SendLoop (sizeBytes response.length) 4) (front back : List LoopThread)
      (hthreads : world.threads = front ++ .sendingSize sock response loop :: back)
      (hdone : ¬ loop.Continues) :
      LoopStep answers world (.goOn sock)
        { world with
          threads := front ++ .sendingData sock response (.enter _ _ world.now) :: back }
  | sendData (world : LoopWorld Store) (sock : Nat) (response : Bytes)
      (loop : SendLoop response (intOfSize response.length))
      (result : Option (SendLoop response (intOfSize response.length))) (returned : Bytes)
      (front back : List LoopThread)
      (hthreads : world.threads = front ++ .sendingData sock response loop :: back)
      (hpass : SendPass connectionsLoopTimeoutSec world.now loop
        (world.connections sock).returned result returned) :
      LoopStep answers world (.call sock)
        (world.settle sock { world.connections sock with returned := returned } front back
          (result.map (.sendingData sock response)))
  | requeue (world : LoopWorld Store) (sock : Nat) (response : Bytes)
      (loop : SendLoop response (intOfSize response.length)) (front back : List LoopThread)
      (hthreads : world.threads = front ++ .sendingData sock response loop :: back)
      (hdone : ¬ loop.Continues) :
      LoopStep answers world (.requeue sock)
        { world with
          queue := world.queue ++ [sock]
          threads := front ++ .waiting :: back }
  | command (world : LoopWorld Store) (sock : Nat) (message : Bytes) :
      LoopStep answers world (.command sock message)
        (world.setConnection sock
          { world.connections sock with
            commands := (world.connections sock).commands ++ [message]
            outgoing := (world.connections sock).outgoing ++ transmitted message })
  | client (world : LoopWorld Store) (sock : Nat) (conn : Connection)
      (hturn : ClientTurn (world.connections sock) conn) :
      LoopStep answers world (.client sock) (world.setConnection sock conn)
  | advance (world : LoopWorld Store) (later : Int) (hlater : world.now ≤ later) :
      LoopStep answers world (.advance later) { world with now := later }

/-! A pass of a loop moves bytes, none at all included, and may close the socket after it. -/

def Moves (sock : Nat) (conn : Connection) (worker : Worker) (conn' : Connection)
    (worker' : Worker) : Prop :=
  Transfer sock conn worker conn' worker' ∨ (conn' = conn ∧ worker' = worker)

theorem RecvPass.moves {bufSize timeoutSec now : Int} {loop : RecvLoop bufSize}
    {sock : Nat} {conn : Connection} {result : Option (RecvLoop bufSize)} {arrived : Bytes}
    (hpass : RecvPass timeoutSec now loop conn.arrived result arrived)
    (worker : Bytes → Worker)
    (htransfer : ∀ got chunk rest, chunk ≠ [] →
      got.length + chunk.length ≤ bufSize.toNat → conn.arrived = chunk ++ rest →
        Transfer sock conn (worker got) { conn with arrived := rest } (worker (got ++ chunk))) :
    ∃ buf, Moves sock conn (worker loop.buf) { conn with arrived := arrived } (worker buf) ∧
      ∀ later ∈ result, later.buf = buf := by
  have hmoves : ∀ chunk rest, loop.buf.length + chunk.length ≤ bufSize.toNat →
      conn.arrived = chunk ++ rest →
        Moves sock conn (worker loop.buf) { conn with arrived := rest }
          (worker (loop.buf ++ chunk)) := by
    intro chunk rest hfits harrived
    cases chunk with
    | nil =>
        rw [List.nil_append] at harrived
        rw [List.append_nil, ← harrived]
        exact .inr ⟨rfl, rfl⟩
    | cons byte chunk =>
        exact .inl (htransfer _ _ _ (List.cons_ne_nil byte chunk) hfits harrived)
  cases hpass with
  | failed hcontinues => exact ⟨loop.buf, .inr ⟨rfl, rfl⟩, by simp⟩
  | received chunk rest hcontinues hfits harrived hintime =>
      refine ⟨_, hmoves chunk _ hfits harrived, ?_⟩
      intro later hlater
      rw [← Option.mem_some.mp hlater]
      rfl
  | timeout chunk rest hcontinues hfits harrived hlate =>
      exact ⟨_, hmoves chunk _ hfits harrived, by simp⟩

theorem SendPass.moves {buf : Bytes} {bufSize timeoutSec now : Int}
    {loop : SendLoop buf bufSize} {sock : Nat} {conn : Connection}
    {result : Option (SendLoop buf bufSize)} {returned : Bytes}
    (hpass : SendPass timeoutSec now loop conn.returned result returned)
    (worker : Bytes → Worker)
    (htransfer : ∀ chunk rest, chunk ≠ [] → Transfer sock conn (worker (chunk ++ rest))
      { conn with returned := conn.returned ++ chunk } (worker rest)) :
    ∃ rest, Moves sock conn (worker loop.rest) { conn with returned := returned }
        (worker rest) ∧ ∀ later ∈ result, later.rest = rest := by
  have hmoves : ∀ count, ∀ hfits : loop.atByte + count ≤ bufSize.toNat,
      Moves sock conn (worker loop.rest)
        { conn with returned := conn.returned ++ loop.rest.take count }
        (worker (loop.sent count hfits).rest) := by
    intro count hfits
    have hrest := loop.rest_eq_take_append count hfits
    by_cases hchunk : loop.rest.take count = []
    · rw [hchunk, List.nil_append] at hrest
      rw [hchunk, List.append_nil, ← hrest]
      exact .inr ⟨rfl, rfl⟩
    · have hsent := htransfer _ (loop.sent count hfits).rest hchunk
      rw [← hrest] at hsent
      exact .inl hsent
  cases hpass with
  | failed hcontinues => exact ⟨loop.rest, .inr ⟨rfl, rfl⟩, by simp⟩
  | sent count hcontinues hfits hintime =>
      refine ⟨_, hmoves count hfits, ?_⟩
      intro later hlater
      rw [← Option.mem_some.mp hlater]
  | timeout count hcontinues hfits hlate => exact ⟨_, hmoves count hfits, by simp⟩

/-- The steps of the pool that one of a thread consists of. -/
def LoopEvent.Covers (closes : Prop) : LoopEvent → PoolEvent → Prop
  | .newConnection sock, event => event = .newConnection sock
  | .pop sock, event => event = .pop sock
  | .call sock, event => event = .transfer sock ∨ event = .socketError sock ∧ closes
  | .goOn sock, event => event = .transfer sock ∨ event = .tooLarge sock
  | .process sock response, event => event = .process sock response
  | .requeue sock, event => event = .requeue sock
  | .command sock message, event => event = .command sock message
  | .client sock, event => event = .client sock
  | .advance _, _ => False

section Refine

variable {Store : Type} {answers : Store → Bytes → Option Bytes → Store → Prop}

theorem reaches_of_moves {pool : PoolWorld Store} {sock : Nat} {conn : Connection}
    {worker worker' : Worker} {front back : List Worker}
    (hworkers : pool.workers = front ++ worker :: back)
    (hmoves : Moves sock (pool.connections sock) worker conn worker') (closes : Prop) :
    Reaches (Restricted (PoolStep answers) fun _ => (LoopEvent.call sock).Covers closes) pool
      { pool.setConnection sock conn with workers := front ++ worker' :: back } := by
  rcases hmoves with htransfer | ⟨rfl, rfl⟩
  · exact .single
      ⟨.transfer pool sock worker worker' conn front back hworkers htransfer, .inl rfl⟩
  · have hsame : pool.setConnection sock (pool.connections sock) = pool := by
      rw [PoolWorld.setConnection, Function.update_eq_self]
    rw [hsame, ← hworkers]
    exact .refl

theorem reaches_goOn {pool pool' : PoolWorld Store} {sock : Nat}
    (hstep : PoolStep answers pool (.transfer sock) pool') :
    Reaches (Restricted (PoolStep answers) fun _ => (LoopEvent.goOn sock).Covers False) pool
      pool' :=
  .single ⟨hstep, .inl rfl⟩

/-- A call on a socket, whatever it returns. -/
theorem LoopWorld.reaches_settle {world : LoopWorld Store} {sock : Nat} {conn : Connection}
    {thread : LoopThread} {result : Option LoopThread} {worker : Worker}
    {front back : List LoopThread} (hthreads : world.threads = front ++ thread :: back)
    (hmoves : Moves sock (world.connections sock) thread.worker conn worker)
    (hsock : worker.sock? = some sock) (hon : worker.OnSocket)
    (hresult : ∀ later ∈ result, later.worker = worker) :
    Reaches
      (Restricted (PoolStep answers) fun _ => (LoopEvent.call sock).Covers
        ((world.settle sock conn front back result).closed ≠ world.closed))
      world.pool (world.settle sock conn front back result).pool := by
  have hworkers : world.pool.workers =
      front.map LoopThread.worker ++ thread.worker :: back.map LoopThread.worker := by
    simp [LoopWorld.pool, hthreads]
  have hmoved := @reaches_of_moves Store answers _ _ _ _ _ _ _ hworkers hmoves
    ((world.settle sock conn front back result).closed ≠ world.closed)
  cases result with
  | some later =>
      have hview : (world.settle sock conn front back (some later)).pool =
          { world.pool.setConnection sock conn with
            workers :=
              front.map LoopThread.worker ++ worker :: back.map LoopThread.worker } := by
        rw [← hresult later rfl]
        simp [LoopWorld.settle, LoopWorld.pool, LoopWorld.setConnection,
          PoolWorld.setConnection]
      rw [hview]
      exact hmoved
  | none =>
      have hview : (world.settle sock conn front back none).pool =
          { world.pool.close sock with
            workers := front.map LoopThread.worker ++ .idle :: back.map LoopThread.worker } := by
        simp [LoopWorld.settle, LoopWorld.pool, LoopWorld.setConnection,
          PoolWorld.setConnection, PoolWorld.close, LoopThread.worker]
      have hclosed := hmoved.tail
        ⟨.socketError _ sock worker _ _ rfl hsock hon, .inr ⟨rfl, List.cons_ne_self _ _⟩⟩
      rw [hview]
      simpa [PoolWorld.close, PoolWorld.setConnection] using hclosed

theorem pool_workers {world : LoopWorld Store} {thread : LoopThread}
    {front back : List LoopThread} (hthreads : world.threads = front ++ thread :: back) :
    world.pool.workers =
      front.map LoopThread.worker ++ thread.worker :: back.map LoopThread.worker := by
  simp [LoopWorld.pool, hthreads]

/-- What a thread does in one step is what a worker of the pool does in at most two. -/
theorem LoopStep.reaches_pool {world world' : LoopWorld Store} {event : LoopEvent}
    (hstep : LoopStep answers world event world') :
    Reaches (Restricted (PoolStep answers) fun _ => event.Covers (world'.closed ≠ world.closed))
      world.pool world'.pool := by
  cases hstep with
  | newConnection sock hnotOpen => exact .single ⟨.newConnection world.pool sock hnotOpen, rfl⟩
  | pop sock queue front back hqueue hthreads =>
      have hpop := @PoolStep.pop Store answers world.pool sock queue _ _ hqueue
        (pool_workers hthreads)
      simpa [LoopWorld.pool, LoopThread.worker, RecvLoop.enter] using Reaches.single ⟨hpop, rfl⟩
  | recvSize sock loop result arrived front back hthreads hpass =>
      obtain ⟨buf, hmoves, hresult⟩ := hpass.moves (.receiveSize sock)
        fun got chunk rest hchunk hfits harrived => .receiveSize _ got chunk rest hchunk hfits
          harrived
      apply LoopWorld.reaches_settle hthreads hmoves rfl trivial
      intro thread hthread
      obtain ⟨later, hlater, rfl⟩ := Option.map_eq_some_iff.mp hthread
      rw [LoopThread.worker, hresult later hlater]
  | sizeReceived sock loop front back hthreads hdone =>
      have hlength := loop.length_of_not_continues hdone
      by_cases hsize : maxSize < Bytes.bigEndian loop.buf
      · have hclosed := @PoolStep.tooLarge Store answers world.pool sock loop.buf _ _
          (pool_workers hthreads) hlength hsize
        simpa [hsize, LoopWorld.settle, LoopWorld.pool, LoopWorld.setConnection,
          PoolWorld.close, PoolWorld.setConnection, LoopThread.worker]
          using Reaches.single ⟨hclosed, .inr rfl⟩
      · have hreceived := @PoolStep.transfer Store answers world.pool sock _ _ _ _ _
          (pool_workers hthreads) (.sizeReceived _ loop.buf hlength (by omega))
        simpa [hsize, LoopWorld.settle, LoopWorld.pool, LoopWorld.setConnection,
          PoolWorld.setConnection, LoopThread.worker, RecvLoop.enter]
          using reaches_goOn hreceived
  | recvData sock msgLen loop result arrived front back hthreads hpass =>
      obtain ⟨buf, hmoves, hresult⟩ := hpass.moves (.receiveData sock msgLen)
        fun got chunk rest hchunk hfits harrived => .receiveData _ msgLen got chunk rest hchunk
          hfits harrived
      apply LoopWorld.reaches_settle hthreads hmoves rfl trivial
      intro thread hthread
      obtain ⟨later, hlater, rfl⟩ := Option.map_eq_some_iff.mp hthread
      rw [LoopThread.worker, hresult later hlater]
  | dataReceived sock msgLen loop front back hthreads hdone =>
      have hreceived := @PoolStep.transfer Store answers world.pool sock _ _ _ _ _
        (pool_workers hthreads)
        (.dataReceived _ msgLen loop.buf (loop.length_of_not_continues hdone))
      simpa [LoopWorld.pool, PoolWorld.setConnection, LoopThread.worker]
        using reaches_goOn hreceived
  | process sock msgBuf response store front back hthreads hanswers =>
      have hsize : (sizeBytes response.length).take 4 = sizeBytes response.length :=
        List.take_of_length_le (by simp)
      have hprocess := PoolStep.process world.pool sock msgBuf response store _ _
        (pool_workers hthreads) hanswers
      simpa [LoopWorld.pool, LoopWorld.setConnection, PoolWorld.setConnection,
        LoopThread.worker, SendLoop.enter, SendLoop.rest, hsize] using Reaches.single ⟨hprocess, rfl⟩
  | noResponse sock msgBuf store front back hthreads hanswers =>
      have hlost := PoolStep.noResponse world.pool sock msgBuf store _ _
        (pool_workers hthreads) hanswers
      simpa [LoopWorld.pool, LoopThread.worker] using Reaches.single ⟨hlost, rfl⟩
  | sendSize sock response loop result returned front back hthreads hpass =>
      obtain ⟨rest, hmoves, hresult⟩ := hpass.moves (fun rest => .sendSize sock rest response)
        fun chunk rest hchunk => .sendSize _ chunk rest response hchunk
      apply LoopWorld.reaches_settle hthreads hmoves rfl trivial
      intro thread hthread
      obtain ⟨later, hlater, rfl⟩ := Option.map_eq_some_iff.mp hthread
      rw [LoopThread.worker, hresult later hlater]
  | sizeSent sock response loop front back hthreads hdone =>
      have hworkers := pool_workers hthreads
      rw [LoopThread.worker, loop.rest_of_not_continues hdone] at hworkers
      have hsent := @PoolStep.transfer Store answers world.pool sock _ _ _ _ _
        hworkers (.sizeSent _ response)
      simpa [LoopWorld.pool, PoolWorld.setConnection, LoopThread.worker, SendLoop.enter,
        SendLoop.rest, intOfSize_toNat] using reaches_goOn hsent
  | sendData sock response loop result returned front back hthreads hpass =>
      obtain ⟨rest, hmoves, hresult⟩ := hpass.moves (.sendData sock)
        fun chunk rest hchunk => .sendData _ chunk rest hchunk
      apply LoopWorld.reaches_settle hthreads hmoves rfl trivial
      intro thread hthread
      obtain ⟨later, hlater, rfl⟩ := Option.map_eq_some_iff.mp hthread
      rw [LoopThread.worker, hresult later hlater]
  | requeue sock response loop front back hthreads hdone =>
      have hworkers := pool_workers hthreads
      rw [LoopThread.worker, loop.rest_of_not_continues hdone] at hworkers
      have hrequeue := @PoolStep.requeue Store answers world.pool sock _ _ hworkers
      simpa [LoopWorld.pool, LoopThread.worker] using Reaches.single ⟨hrequeue, rfl⟩
  | command sock message => exact .single ⟨.command world.pool sock message, rfl⟩
  | client sock conn hturn => exact .single ⟨.client world.pool sock conn hturn, rfl⟩
  | advance later hlater => exact .refl

theorem LoopWorld.start_pool (store : Store) (numThreads : Nat) (now : Int) :
    (start store numThreads now).pool = .start store numThreads := by
  simp [start, pool, PoolWorld.start, LoopThread.worker]

theorem loop_simulation :
    Simulation (LoopStep answers) (PoolStep answers)
      fun world pool => True ∧ LoopWorld.pool world = pool :=
  .of_view fun _ hstep => ⟨trivial, hstep.reaches_pool.of_restricted⟩

/-- Whatever the kernel returns and whatever time it is, the threads of the pool do what its
workers do. -/
theorem socketLoops_refine_pool {store : Store} {numThreads : Nat} {now : Int}
    {world : LoopWorld Store}
    (hrun : Reaches (LoopStep answers) (.start store numThreads now) world) :
    Reaches (PoolStep answers) (.start store numThreads) world.pool := by
  obtain ⟨pool, hreaches, _, rfl⟩ :=
    loop_simulation.reaches ⟨trivial, LoopWorld.start_pool store numThreads now⟩ hrun
  exact hreaches

/-! One exchange, a call at a time, with a second for the command to arrive. -/

def LoopWorld.alone (store : Store) (queue : List Nat) (thread : LoopThread) (conn : Connection)
    (now : Int) : LoopWorld Store where
  store := store
  queue := queue
  threads := [thread]
  handed := [7]
  closed := []
  connections := Function.update (fun _ => .fresh) 7 conn
  now := now

def loopExchangeEvents (message response : Bytes) : List LoopEvent :=
  [.newConnection 7, .command 7 message, .client 7, .pop 7, .advance 1, .call 7, .goOn 7,
    .process 7 (some response), .requeue 7]

namespace LoopWorld

variable {store : Store} {queue : List Nat} {thread thread' : LoopThread}
variable {conn conn' : Connection} {now : Int} {event : LoopEvent}

@[simp] theorem alone_connection : (alone store queue thread conn now).connections 7 = conn := by
  simp [alone]

theorem alone_setConnection (conn' : Connection) :
    (alone store queue thread conn now).setConnection 7 conn' =
      alone store queue thread conn' now := by
  rw [setConnection, alone, Function.update_idem]
  rfl

theorem alone_newConnection :
    LoopStep answers (start store 1 0) (.newConnection 7) (alone store [7] .waiting .fresh 0) := by
  have hstep := @LoopStep.newConnection Store answers (start store 1 0) 7 rfl
  rwa [alone, Function.update_eq_self_iff.mpr rfl]

theorem alone_command (message : Bytes) :
    LoopStep answers (alone store queue thread conn now) (.command 7 message)
      (alone store queue thread
        { conn with
          commands := conn.commands ++ [message]
          outgoing := conn.outgoing ++ transmitted message } now) := by
  have hstep := @LoopStep.command Store answers (alone store queue thread conn now) 7 message
  rwa [alone_connection, alone_setConnection] at hstep

theorem alone_client (hturn : ClientTurn conn conn') :
    LoopStep answers (alone store queue thread conn now) (.client 7)
      (alone store queue thread conn' now) := by
  have hstep := @LoopStep.client Store answers (alone store queue thread conn now) 7 conn'
    (by rwa [alone_connection])
  rwa [alone_setConnection] at hstep

theorem alone_settle (conn' : Connection) (thread' : LoopThread) :
    (alone store queue thread conn now).settle 7 conn' [] [] (some thread') =
      alone store queue thread' conn' now := by
  rw [settle, alone_setConnection]
  rfl

theorem alone_process {msgBuf response : Bytes} {store' : Store}
    (hanswers : answers store msgBuf (some response) store') :
    LoopStep answers (alone store queue (.processing 7 msgBuf) conn now)
      (.process 7 (some response))
      (alone store' queue (.sendingSize 7 response (.enter _ 4 now))
        { conn with served := conn.served ++ [(msgBuf, response)] } now) := by
  have hstep := @LoopStep.process Store answers
    (alone store queue (.processing 7 msgBuf) conn now) 7 msgBuf response store' [] [] rfl
    hanswers
  rw [alone_connection, alone_setConnection] at hstep
  exact hstep

theorem alone_recvSize {loop : RecvLoop 4} {chunk rest : Bytes} (hcontinues : loop.Continues)
    (hfits : loop.buf.length + chunk.length ≤ (4 : Int).toNat)
    (harrived : conn.arrived = chunk ++ rest)
    (hintime : now - loop.time ≤ connectionsLoopTimeoutSec) :
    LoopStep answers (alone store queue (.receivingSize 7 loop) conn now) (.call 7)
      (alone store queue (.receivingSize 7 (loop.received chunk hfits))
        { conn with arrived := rest } now) := by
  have hpass := RecvPass.received chunk rest hcontinues hfits harrived hintime
  have hstep := @LoopStep.recvSize Store answers
    (alone store queue (.receivingSize 7 loop) conn now) 7 loop _ rest [] [] rfl
    (by rwa [alone_connection])
  rwa [alone_connection, Option.map_some, alone_settle] at hstep

theorem alone_recvData {msgLen : Nat} {loop : RecvLoop msgLen} {chunk rest : Bytes}
    (hcontinues : loop.Continues)
    (hfits : loop.buf.length + chunk.length ≤ (msgLen : Int).toNat)
    (harrived : conn.arrived = chunk ++ rest)
    (hintime : now - loop.time ≤ connectionsLoopTimeoutSec) :
    LoopStep answers (alone store queue (.receivingData 7 msgLen loop) conn now) (.call 7)
      (alone store queue (.receivingData 7 msgLen (loop.received chunk hfits))
        { conn with arrived := rest } now) := by
  have hpass := RecvPass.received chunk rest hcontinues hfits harrived hintime
  have hstep := @LoopStep.recvData Store answers
    (alone store queue (.receivingData 7 msgLen loop) conn now) 7 msgLen loop _ rest [] [] rfl
    (by rwa [alone_connection])
  rwa [alone_connection, Option.map_some, alone_settle] at hstep

theorem alone_sizeReceived {loop : RecvLoop 4} (hdone : ¬ loop.Continues)
    (hsize : Bytes.bigEndian loop.buf ≤ maxSize) :
    LoopStep answers (alone store queue (.receivingSize 7 loop) conn now) (.goOn 7)
      (alone store queue (.receivingData 7 (Bytes.bigEndian loop.buf) (.enter _ now)) conn
        now) := by
  have hstep := @LoopStep.sizeReceived Store answers
    (alone store queue (.receivingSize 7 loop) conn now) 7 loop [] [] rfl hdone
  rwa [if_neg hsize.not_gt, alone_connection, alone_settle] at hstep

theorem alone_sendSize {response : Bytes} {loop : SendLoop (sizeBytes response.length) 4}
    (count : Nat) (hcontinues : loop.Continues)
    (hfits : loop.atByte + count ≤ (4 : Int).toNat)
    (hintime : now - loop.time ≤ connectionsLoopTimeoutSec) :
    LoopStep answers (alone store queue (.sendingSize 7 response loop) conn now) (.call 7)
      (alone store queue (.sendingSize 7 response (loop.sent count hfits))
        { conn with returned := conn.returned ++ loop.rest.take count } now) := by
  have hpass : SendPass connectionsLoopTimeoutSec now loop conn.returned _ _ :=
    .sent count hcontinues hfits hintime
  have hstep := @LoopStep.sendSize Store answers
    (alone store queue (.sendingSize 7 response loop) conn now) 7 response loop _ _ [] [] rfl
    (by rwa [alone_connection])
  rwa [alone_connection, Option.map_some, alone_settle] at hstep

theorem alone_sendData {response : Bytes}
    {loop : SendLoop response (intOfSize response.length)} (count : Nat)
    (hcontinues : loop.Continues)
    (hfits : loop.atByte + count ≤ (intOfSize response.length).toNat)
    (hintime : now - loop.time ≤ connectionsLoopTimeoutSec) :
    LoopStep answers (alone store queue (.sendingData 7 response loop) conn now) (.call 7)
      (alone store queue (.sendingData 7 response (loop.sent count hfits))
        { conn with returned := conn.returned ++ loop.rest.take count } now) := by
  have hpass : SendPass connectionsLoopTimeoutSec now loop conn.returned _ _ :=
    .sent count hcontinues hfits hintime
  have hstep := @LoopStep.sendData Store answers
    (alone store queue (.sendingData 7 response loop) conn now) 7 response loop _ _ [] [] rfl
    (by rwa [alone_connection])
  rwa [alone_connection, Option.map_some, alone_settle] at hstep

end LoopWorld

section Exchange

variable {step : LoopWorld Store → LoopEvent → LoopWorld Store → Prop}
variable {store store' : Store} {message response : Bytes}

theorem reaches_processing
    (hstep : ∀ {world world' event}, LoopStep answers world event world' →
      world'.closed = world.closed → event ∈ loopExchangeEvents message response →
        step world event world')
    (hmessage : message ≠ []) (hlength : message.length ≤ maxSize) :
    Reaches step (.start store 1 0)
      (.alone store [] (.processing 7 message) ⟨[message], [], [], [], [], .size [], []⟩ 1) := by
  have extend : ∀ {world : LoopWorld Store} {event : LoopEvent} (next : LoopWorld Store),
      LoopStep answers world event next → event ∈ loopExchangeEvents message response →
        Reaches step (.start store 1 0) world → next.closed = world.closed →
          Reaches step (.start store 1 0) next :=
    fun next hnext hmem hrun hclosed => hrun.tail (hstep hnext hclosed hmem)
  have hsize : Bytes.bigEndian (sizeBytes message.length) = message.length :=
    bigEndian_sizeBytes (hlength.trans_lt (by decide))
  have hheader : sizeBytes message.length ≠ [] := List.ne_nil_of_length_pos (by simp)
  have hframe : transmitted message = sizeBytes message.length ++ message :=
    transmitted_eq_frame (hlength.trans_lt (by decide))
  have hconnected := extend _ LoopWorld.alone_newConnection (by simp [loopExchangeEvents])
    .refl rfl
  have hframed := extend
    (.alone store [7] .waiting ⟨[message], transmitted message, [], [], [], .size [], []⟩ 0)
    (LoopWorld.alone_command message) (by simp [loopExchangeEvents]) hconnected rfl
  rw [hframe] at hframed
  have hsent := extend
    (.alone store [7] .waiting
      ⟨[message], [], sizeBytes message.length ++ message, [], [], .size [], []⟩ 0)
    (LoopWorld.alone_client (.send _ (sizeBytes message.length ++ message) []
      (List.append_ne_nil_of_left_ne_nil hheader _) (by simp)))
    (by simp [loopExchangeEvents]) hframed rfl
  have hpopped := extend
    (.alone store [] (.receivingSize 7 (.enter 4 0))
      ⟨[message], [], sizeBytes message.length ++ message, [], [], .size [], []⟩ 0)
    (.pop _ 7 [] [] [] rfl rfl) (by simp [loopExchangeEvents]) hsent rfl
  have hlater := extend
    (.alone store [] (.receivingSize 7 (.enter 4 0))
      ⟨[message], [], sizeBytes message.length ++ message, [], [], .size [], []⟩ 1)
    (.advance _ 1 (by decide : (0 : Int) ≤ 1)) (by simp [loopExchangeEvents]) hpopped rfl
  have hcontinues : (RecvLoop.enter 4 0).Continues := by
    unfold RecvLoop.Continues RecvLoop.enter
    decide
  have hfits : (RecvLoop.enter 4 0).buf.length + (sizeBytes message.length).length ≤
      (4 : Int).toNat := by
    simp [RecvLoop.enter]
  have hsized := extend _ (LoopWorld.alone_recvSize hcontinues hfits rfl (by decide))
    (by simp [loopExchangeEvents]) hlater rfl
  have hdone : ¬ ((RecvLoop.enter 4 0).received (sizeBytes message.length) hfits).Continues := by
    simp [RecvLoop.Continues, RecvLoop.received, RecvLoop.enter]
  have hentered := extend
    (.alone store []
      (.receivingData 7 (Bytes.bigEndian (sizeBytes message.length)) (.enter _ 1))
      ⟨[message], [], message, [], [], .size [], []⟩ 1)
    (LoopWorld.alone_sizeReceived hdone (by
      simpa [RecvLoop.received, RecvLoop.enter, hsize] using hlength))
    (by simp [loopExchangeEvents]) hsized rfl
  rw [hsize] at hentered
  have hreads : (RecvLoop.enter message.length 1).Continues :=
    Int.ofNat_lt.mpr (List.length_pos_iff.mpr hmessage)
  have hwhole : (RecvLoop.enter message.length 1).buf.length + message.length ≤
      (message.length : Int).toNat := by
    simp [RecvLoop.enter]
  have hread := extend _ (LoopWorld.alone_recvData hreads hwhole
    (List.append_nil message).symm (by simp [RecvLoop.enter, connectionsLoopTimeoutSec]))
    (by simp [loopExchangeEvents]) hentered rfl
  have hcomplete : ¬ ((RecvLoop.enter message.length 1).received message hwhole).Continues := by
    simp [RecvLoop.Continues, RecvLoop.received, RecvLoop.enter]
  exact extend _ (.dataReceived _ 7 message.length _ [] [] rfl hcomplete)
    (by simp [loopExchangeEvents]) hread rfl

theorem reaches_loopExchange
    (hstep : ∀ {world world' event}, LoopStep answers world event world' →
      world'.closed = world.closed → event ∈ loopExchangeEvents message response →
        step world event world')
    (hmessage : message ≠ []) (hlength : message.length ≤ maxSize) (hresponse : response ≠ [])
    (hsmall : response.length < 2 ^ 31)
    (hanswers : answers store message (some response) store') :
    Reaches step (.start store 1 0)
      (.alone store' [7] .waiting
        ⟨[message], [], [], [(message, response)], [], .size [], [response]⟩ 1) := by
  have extend : ∀ {world : LoopWorld Store} {event : LoopEvent} (next : LoopWorld Store),
      LoopStep answers world event next → event ∈ loopExchangeEvents message response →
        Reaches step (.start store 1 0) world → next.closed = world.closed →
          Reaches step (.start store 1 0) next :=
    fun next hnext hmem hrun hclosed => hrun.tail (hstep hnext hclosed hmem)
  have hsize : Bytes.bigEndian (sizeBytes response.length) = response.length :=
    bigEndian_sizeBytes (by omega)
  have hheader : sizeBytes response.length ≠ [] := List.ne_nil_of_length_pos (by simp)
  have hint : (intOfSize response.length).toNat = response.length := by
    rw [intOfSize_toNat, intSize_of_lt hsmall]
  have hprocessed := extend _ (LoopWorld.alone_process hanswers)
    (by simp [loopExchangeEvents]) (reaches_processing hstep hmessage hlength) rfl
  have hcontinues : (SendLoop.enter (sizeBytes response.length) 4 1).Continues := by
    simp [SendLoop.Continues, SendLoop.enter]
  have hfits : (SendLoop.enter (sizeBytes response.length) 4 1).atByte + 4 ≤
      (4 : Int).toNat := by
    simp [SendLoop.enter]
  have hheaded := extend _ (LoopWorld.alone_sendSize 4 hcontinues hfits
    (by simp [SendLoop.enter, connectionsLoopTimeoutSec])) (by simp [loopExchangeEvents])
    hprocessed rfl
  have htake : (SendLoop.enter (sizeBytes response.length) 4 1).rest.take 4 =
      sizeBytes response.length := by
    simp [SendLoop.rest, SendLoop.enter, List.take_of_length_le]
  rw [htake] at hheaded
  have hdone :
      ¬ ((SendLoop.enter (sizeBytes response.length) 4 1).sent 4 hfits).Continues := by
    simp [SendLoop.Continues, SendLoop.sent, SendLoop.enter]
  have hsending := extend
    (.alone store' [] (.sendingData 7 response (.enter _ _ 1))
      ⟨[message], [], [], [(message, response)], sizeBytes response.length, .size [], []⟩ 1)
    (.sizeSent _ 7 response _ [] [] rfl hdone) (by simp [loopExchangeEvents]) hheaded rfl
  have hpos := List.length_pos_iff.mpr hresponse
  have hsends : (SendLoop.enter response (intOfSize response.length) 1).Continues := by
    change ((0 : Nat) : Int) < intOfSize response.length
    omega
  have hwhole : (SendLoop.enter response (intOfSize response.length) 1).atByte +
      response.length ≤ (intOfSize response.length).toNat := by
    simp [SendLoop.enter, hint]
  have hsent := extend _ (LoopWorld.alone_sendData response.length hsends hwhole
    (by simp [SendLoop.enter, connectionsLoopTimeoutSec])) (by simp [loopExchangeEvents])
    hsending rfl
  have hbody : (SendLoop.enter response (intOfSize response.length) 1).rest.take
      response.length = response := by
    simp [SendLoop.rest, SendLoop.enter, hint]
  rw [hbody] at hsent
  have hcomplete : ¬ ((SendLoop.enter response (intOfSize response.length) 1).sent
      response.length hwhole).Continues := by
    change ¬ ((0 + response.length : Nat) : Int) < intOfSize response.length
    omega
  have hqueued := extend
    (.alone store' [7] .waiting
      ⟨[message], [], [], [(message, response)], sizeBytes response.length ++ response,
        .size [], []⟩ 1)
    (.requeue _ 7 response _ [] [] rfl hcomplete) (by simp [loopExchangeEvents]) hsent rfl
  have hreceived := extend
    (.alone store' [7] .waiting
      ⟨[message], [], [], [(message, response)], response, .size (sizeBytes response.length),
        []⟩ 1)
    (LoopWorld.alone_client
      (.receiveSize _ [] (sizeBytes response.length) response hheader rfl (by simp) rfl))
    (by simp [loopExchangeEvents]) hqueued rfl
  have hreading := extend _ (LoopWorld.alone_client (.sizeReceived _ _ rfl (by simp)))
    (by simp [loopExchangeEvents]) hreceived rfl
  rw [hsize] at hreading
  have hread := extend
    (.alone store' [7] .waiting
      ⟨[message], [], [], [(message, response)], [], .data response.length response, []⟩ 1)
    (LoopWorld.alone_client (.receiveData _ response.length [] response [] hresponse rfl
      (by simp [intSize_of_lt hsmall]) (by simp))) (by simp [loopExchangeEvents]) hreading rfl
  have hfinished := extend _ (LoopWorld.alone_client
    (.dataReceived _ response.length response rfl (intSize_of_lt hsmall).symm))
    (by simp [loopExchangeEvents]) hread rfl
  simpa using hfinished

end Exchange

end Refine

/-- The reference vote takes a second to arrive; its receipt is sent and read. -/
theorem socketLoops_refine_pool_vote :
    ∃ world : LoopWorld Database,
      world.now = 1 ∧ (world.connections 7).responses = [voteResponse] ∧
        Reaches
          (PoolStep (processes SmallElection.referenceLib SmallElection.reference.config))
          (.start SmallElection.reference.database 1) world.pool := by
  obtain ⟨hmessage, hlength⟩ := referenceVote_length
  obtain ⟨hpos, hsmall⟩ := voteResponse_length
  have hanswers : processes SmallElection.referenceLib SmallElection.reference.config _ _ _ _ :=
    ⟨5, processCommand_voteResponse⟩
  have hrun := reaches_loopExchange (fun hstep _ _ => hstep)
    (List.ne_nil_of_length_pos hmessage) hlength (List.ne_nil_of_length_pos hpos) hsmall hanswers
  exact ⟨_, rfl, by simp, socketLoops_refine_pool hrun⟩

end VotingSystem.Server
