import VotingSystem.Data.Transition
import VotingSystem.Server.Connection
import VotingSystem.Server.SmallVote

namespace VotingSystem.Server

open VotingSystem.Data VotingSystem.Crypto VotingSystem.Protos VotingSystem.Storage

/-! The pool: its queue, its workers and the connections it was handed. What
`processCommand` does to the tables is a relation, so that any interleaving inside it
is covered. -/

/-- `handed` and `closed` keep the calls of `newConnection` and `close`. -/
structure PoolWorld (Store : Type) where
  store : Store
  queue : List Nat
  workers : List Worker
  handed : List Nat
  closed : List Nat
  connections : Nat → Connection

inductive PoolEvent
  | newConnection (sock : Nat)
  | pop (sock : Nat)
  | transfer (sock : Nat)
  | process (sock : Nat) (response : Option Bytes)
  | requeue (sock : Nat)
  | socketError (sock : Nat)
  | tooLarge (sock : Nat)
  | command (sock : Nat) (message : Bytes)
  | client (sock : Nat)
  deriving DecidableEq

namespace PoolWorld

variable {Store : Type}

def start (store : Store) (numThreads : Nat) : PoolWorld Store where
  store := store
  queue := []
  workers := List.replicate numThreads .idle
  handed := []
  closed := []
  connections := fun _ => .fresh

/-- How many workers hold a socket. -/
def held (world : PoolWorld Store) (sock : Nat) : Nat :=
  world.workers.countP fun worker => worker.sock? = some sock

def setConnection (world : PoolWorld Store) (sock : Nat) (conn : Connection) :
    PoolWorld Store :=
  { world with connections := Function.update world.connections sock conn }

/-- After a `close` the descriptor can name a new connection. -/
def close (world : PoolWorld Store) (sock : Nat) : PoolWorld Store :=
  { world.setConnection sock .fresh with closed := sock :: world.closed }

end PoolWorld

/-- `answers` relates the tables, a message and its response, where `none` stands for a
response that was not produced, to the tables after it. A worker that finds the queue
empty, or no bytes, waits without a step. -/
inductive PoolStep {Store : Type} (answers : Store → Bytes → Option Bytes → Store → Prop) :
    PoolWorld Store → PoolEvent → PoolWorld Store → Prop
  | newConnection (world : PoolWorld Store) (sock : Nat)
      (hnotOpen : world.handed.count sock = world.closed.count sock) :
      PoolStep answers world (.newConnection sock)
        { world with
          queue := world.queue ++ [sock]
          handed := sock :: world.handed }
  | pop (world : PoolWorld Store) (sock : Nat) (queue : List Nat) (front back : List Worker)
      (hqueue : world.queue = sock :: queue)
      (hworkers : world.workers = front ++ .idle :: back) :
      PoolStep answers world (.pop sock)
        { world with
          queue := queue
          workers := front ++ .receiveSize sock [] :: back }
  | transfer (world : PoolWorld Store) (sock : Nat) (worker worker' : Worker)
      (conn : Connection) (front back : List Worker)
      (hworkers : world.workers = front ++ worker :: back)
      (htransfer : Transfer sock (world.connections sock) worker conn worker') :
      PoolStep answers world (.transfer sock)
        { world.setConnection sock conn with workers := front ++ worker' :: back }
  | process (world : PoolWorld Store) (sock : Nat) (msgBuf response : Bytes) (store : Store)
      (front back : List Worker)
      (hworkers : world.workers = front ++ .process sock msgBuf :: back)
      (hanswers : answers world.store msgBuf (some response) store) :
      PoolStep answers world (.process sock (some response))
        { world.setConnection sock
            { world.connections sock with
              served := (world.connections sock).served ++ [(msgBuf, response)] } with
          store := store
          workers := front ++ .sendSize sock (sizeBytes response.length) response :: back }
  | noResponse (world : PoolWorld Store) (sock : Nat) (msgBuf : Bytes) (store : Store)
      (front back : List Worker)
      (hworkers : world.workers = front ++ .process sock msgBuf :: back)
      (hanswers : answers world.store msgBuf none store) :
      -- the loop continues without a `close`
      PoolStep answers world (.process sock none)
        { world with
          store := store
          workers := front ++ .idle :: back }
  | requeue (world : PoolWorld Store) (sock : Nat) (front back : List Worker)
      (hworkers : world.workers = front ++ .sendData sock [] :: back) :
      PoolStep answers world (.requeue sock)
        { world with
          queue := world.queue ++ [sock]
          workers := front ++ .idle :: back }
  | socketError (world : PoolWorld Store) (sock : Nat) (worker : Worker)
      (front back : List Worker) (hworkers : world.workers = front ++ worker :: back)
      (hsock : worker.sock? = some sock) (hon : worker.OnSocket) :
      PoolStep answers world (.socketError sock)
        { world.close sock with workers := front ++ .idle :: back }
  | tooLarge (world : PoolWorld Store) (sock : Nat) (got : Bytes) (front back : List Worker)
      (hworkers : world.workers = front ++ .receiveSize sock got :: back)
      (hgot : got.length = 4) (hsize : maxSize < Bytes.bigEndian got) :
      PoolStep answers world (.tooLarge sock)
        { world.close sock with workers := front ++ .idle :: back }
  | command (world : PoolWorld Store) (sock : Nat) (message : Bytes) :
      PoolStep answers world (.command sock message)
        (world.setConnection sock
          { world.connections sock with
            commands := (world.connections sock).commands ++ [message]
            outgoing := (world.connections sock).outgoing ++ transmitted message })
  | client (world : PoolWorld Store) (sock : Nat) (conn : Connection)
      (hturn : ClientTurn (world.connections sock) conn) :
      PoolStep answers world (.client sock) (world.setConnection sock conn)

/-! Where a socket is. -/

section Count

variable {Store : Type} {answers : Store → Bytes → Option Bytes → Store → Prop}

/-- The places that a socket is in, a `close` counting as one. -/
def PoolWorld.places (world : PoolWorld Store) (sock : Nat) : Nat :=
  world.closed.count sock + world.queue.count sock + world.held sock

/-- A socket is in one place for each time it was handed in, and waits or is held at
most once. -/
structure Placed (world : PoolWorld Store) (sock : Nat) : Prop where
  handed : world.handed.count sock = world.places sock
  once : world.queue.count sock + world.held sock ≤ 1

/-- How many workers hold a socket, before and after one of them goes on. -/
theorem countP_replace (front back : List Worker) (worker worker' : Worker) (sock : Nat) :
    (front ++ worker' :: back).countP (fun held => held.sock? = some sock) +
        (if worker.sock? = some sock then 1 else 0) =
      (front ++ worker :: back).countP (fun held => held.sock? = some sock) +
        (if worker'.sock? = some sock then 1 else 0) := by
  simp only [List.countP_append, List.countP_cons, decide_eq_true_eq]
  omega

/-- What a step does to the places of a socket: a new connection adds one, a response
that is not produced takes one away. -/
theorem PoolStep.places_eq {world world' : PoolWorld Store} {event : PoolEvent}
    (hstep : PoolStep answers world event world') (sock : Nat) :
    world'.places sock + (if event = .process sock none then 1 else 0) =
        world.places sock + (if event = .newConnection sock then 1 else 0) ∧
      world'.handed.count sock =
        world.handed.count sock + (if event = .newConnection sock then 1 else 0) ∧
      world.closed.count sock ≤ world'.closed.count sock := by
  cases hstep with
  | newConnection other hnotOpen =>
      simp only [PoolWorld.places, PoolWorld.held, List.count_append, List.count_cons,
        List.count_nil, beq_iff_eq, reduceCtorEq, if_false, PoolEvent.newConnection.injEq,
        true_and]
      omega
  | pop other queue front back hqueue hworkers =>
      have hheld := countP_replace front back .idle (.receiveSize other []) sock
      simp only [PoolWorld.places, PoolWorld.held, hworkers, hqueue, List.count_cons,
        Worker.sock?, reduceCtorEq, if_false, beq_iff_eq, Option.some.injEq] at hheld ⊢
      omega
  | transfer other worker worker' conn front back hworkers htransfer =>
      obtain ⟨hbefore, hafter⟩ := htransfer.sock?_eq
      have hheld := countP_replace front back worker worker' sock
      rw [hbefore, hafter] at hheld
      simp only [PoolWorld.places, PoolWorld.held, hworkers, PoolWorld.setConnection,
        reduceCtorEq, if_false, Option.some.injEq] at hheld ⊢
      omega
  | process other msgBuf response store front back hworkers hanswers =>
      have hheld := countP_replace front back (.process other msgBuf)
        (.sendSize other (sizeBytes response.length) response) sock
      simp only [PoolWorld.places, PoolWorld.held, hworkers, PoolWorld.setConnection,
        Worker.sock?, reduceCtorEq, if_false, Option.some.injEq, PoolEvent.process.injEq,
        and_false] at hheld ⊢
      omega
  | noResponse other msgBuf store front back hworkers hanswers =>
      have hheld := countP_replace front back (.process other msgBuf) .idle sock
      simp only [PoolWorld.places, PoolWorld.held, hworkers, Worker.sock?, reduceCtorEq,
        if_false, Option.some.injEq, PoolEvent.process.injEq, and_true] at hheld ⊢
      omega
  | requeue other front back hworkers =>
      have hheld := countP_replace front back (.sendData other []) .idle sock
      simp only [PoolWorld.places, PoolWorld.held, hworkers, List.count_append,
        List.count_cons, List.count_nil, Worker.sock?, reduceCtorEq, if_false, beq_iff_eq,
        Option.some.injEq] at hheld ⊢
      omega
  | socketError other worker front back hworkers hsock hon =>
      have hheld := countP_replace front back worker .idle sock
      rw [hsock] at hheld
      simp only [PoolWorld.places, PoolWorld.held, hworkers, PoolWorld.close,
        PoolWorld.setConnection, List.count_cons, Worker.sock?, reduceCtorEq, if_false,
        beq_iff_eq, Option.some.injEq] at hheld ⊢
      omega
  | tooLarge other got front back hworkers hgot hsize =>
      have hheld := countP_replace front back (.receiveSize other got) .idle sock
      simp only [PoolWorld.places, PoolWorld.held, hworkers, PoolWorld.close,
        PoolWorld.setConnection, List.count_cons, Worker.sock?, reduceCtorEq, if_false,
        beq_iff_eq, Option.some.injEq] at hheld ⊢
      omega
  | command other message =>
      simp [PoolWorld.places, PoolWorld.setConnection, PoolWorld.held]
  | client other conn hturn =>
      simp [PoolWorld.places, PoolWorld.setConnection, PoolWorld.held]

theorem PoolStep.handed_le {world world' : PoolWorld Store} {event : PoolEvent}
    (hstep : PoolStep answers world event world') (sock : Nat)
    (hhanded : world.handed.count sock ≤ world.closed.count sock + 1) :
    world'.handed.count sock ≤ world'.closed.count sock + 1 := by
  obtain ⟨_, hhanded', hclosed⟩ := hstep.places_eq sock
  by_cases hevent : event = .newConnection sock
  · subst hevent
    cases hstep with
    | newConnection sock hnotOpen =>
        simp only [List.count_cons_self]
        omega
  · rw [if_neg hevent] at hhanded'
    omega

/-- Neither lost nor shared, with every open socket handed in once. -/
structure Kept (world : PoolWorld Store) (sock : Nat) : Prop where
  handed : world.handed.count sock = world.places sock
  handed_le : world.handed.count sock ≤ world.closed.count sock + 1

theorem Kept.placed {world : PoolWorld Store} {sock : Nat} (hkept : Kept world sock) :
    Placed world sock where
  handed := hkept.handed
  once := by
    obtain ⟨hhanded, hle⟩ := hkept
    rw [PoolWorld.places] at hhanded
    omega

theorem Kept.start (store : Store) (numThreads sock : Nat) :
    Kept (PoolWorld.start store numThreads) sock where
  handed := by
    have hidle : (List.replicate numThreads Worker.idle).countP
        (fun worker => worker.sock? = some sock) = 0 := by
      simp [List.countP_replicate, Worker.sock?]
    simp [PoolWorld.places, PoolWorld.held, PoolWorld.start, hidle]
  handed_le := by simp [PoolWorld.start]

theorem Kept.step {world world' : PoolWorld Store} {event : PoolEvent} {sock : Nat}
    (hkept : Kept world sock) (hstep : PoolStep answers world event world')
    (hresponds : event ≠ .process sock none) : Kept world' sock where
  handed := by
    obtain ⟨hplaces, hhanded, _⟩ := hstep.places_eq sock
    have hbefore := hkept.handed
    rw [if_neg hresponds] at hplaces
    omega
  handed_le := hstep.handed_le sock hkept.handed_le

/-- Every command that is processed gets a response. -/
def Responds (_ : PoolWorld Store) : PoolEvent → Prop
  | .process _ none => False
  | _ => True

theorem Kept.run {start world : PoolWorld Store} {sock : Nat} (hkept : Kept start sock)
    (hrun : Reaches (Restricted (PoolStep answers) Responds) start world) :
    Kept world sock := by
  induction hrun with
  | refl => exact hkept
  | tail _ hrestricted ih =>
      obtain ⟨hstep, hresponds⟩ := hrestricted
      refine ih.step hstep ?_
      rintro rfl
      exact hresponds

/-- A response that is not produced loses the socket. -/
theorem Kept.lost {world world' : PoolWorld Store} {sock : Nat} (hkept : Kept world sock)
    (hstep : PoolStep answers world (.process sock none) world') : ¬Placed world' sock := by
  intro hplaced
  obtain ⟨hplaces, hhanded, _⟩ := hstep.places_eq sock
  have hbefore := hkept.handed
  have hafter := hplaced.handed
  simp only [if_true, reduceCtorEq, if_false] at hplaces hhanded
  omega

end Count

/-- As long as every command gets a response, no socket is lost or shared; the first
one that gets none loses its socket. -/
theorem connections_kept_while_responding {Store : Type}
    {answers : Store → Bytes → Option Bytes → Store → Prop} {store : Store}
    {numThreads : Nat} {world : PoolWorld Store}
    (hrun : Reaches (Restricted (PoolStep answers) Responds) (.start store numThreads)
      world) :
    (∀ sock, Placed world sock) ∧
      ∀ sock world', PoolStep answers world (.process sock none) world' →
        ¬Placed world' sock := by
  have hkept : ∀ sock, Kept world sock := fun sock =>
    (Kept.start store numThreads sock).run hrun
  exact ⟨fun sock => (hkept sock).placed, fun sock _ hstep => (hkept sock).lost hstep⟩

/-! One connection on the one thread of a pool. -/

def PoolWorld.alone {Store : Type} (store : Store) (queue : List Nat) (worker : Worker)
    (conn : Connection) : PoolWorld Store where
  store := store
  queue := queue
  workers := [worker]
  handed := [7]
  closed := []
  connections := Function.update (fun _ => .fresh) 7 conn

namespace PoolWorld

section Alone

variable {Store : Type} {answers : Store → Bytes → Option Bytes → Store → Prop}
variable {store : Store} {queue : List Nat} {worker : Worker} {conn : Connection}

@[simp] theorem alone_connection : (alone store queue worker conn).connections 7 = conn := by
  simp [alone]

theorem alone_setConnection (conn' : Connection) :
    (alone store queue worker conn).setConnection 7 conn' =
      alone store queue worker conn' := by
  rw [setConnection, alone, Function.update_idem]
  rfl

theorem alone_newConnection :
    PoolStep answers (start store 1) (.newConnection 7) (alone store [7] .idle .fresh) := by
  have hstep := @PoolStep.newConnection Store answers (start store 1) 7 rfl
  rwa [alone, Function.update_eq_self_iff.mpr rfl]

theorem alone_command (message : Bytes) :
    PoolStep answers (alone store queue worker conn) (.command 7 message)
      (alone store queue worker
        { conn with
          commands := conn.commands ++ [message]
          outgoing := conn.outgoing ++ transmitted message }) := by
  have hstep := @PoolStep.command Store answers (alone store queue worker conn) 7 message
  rwa [alone_connection, alone_setConnection] at hstep

theorem alone_client {conn' : Connection} (hturn : ClientTurn conn conn') :
    PoolStep answers (alone store queue worker conn) (.client 7)
      (alone store queue worker conn') := by
  have hstep := @PoolStep.client Store answers (alone store queue worker conn) 7 conn'
    (by rwa [alone_connection])
  rwa [alone_setConnection] at hstep

theorem alone_transfer {conn' : Connection} {worker' : Worker}
    (htransfer : Transfer 7 conn worker conn' worker') :
    PoolStep answers (alone store queue worker conn) (.transfer 7)
      (alone store queue worker' conn') := by
  have hstep := @PoolStep.transfer Store answers (alone store queue worker conn) 7 worker
    worker' conn' [] [] rfl (by rwa [alone_connection])
  rw [alone_setConnection] at hstep
  exact hstep

theorem alone_process {msgBuf response : Bytes} {store' : Store}
    (hanswers : answers store msgBuf (some response) store') :
    PoolStep answers (alone store queue (.process 7 msgBuf) conn)
      (.process 7 (some response))
      (alone store' queue (.sendSize 7 (sizeBytes response.length) response)
        { conn with served := conn.served ++ [(msgBuf, response)] }) := by
  have hstep := @PoolStep.process Store answers (alone store queue (.process 7 msgBuf) conn)
    7 msgBuf response store' [] [] rfl hanswers
  rw [alone_connection, alone_setConnection] at hstep
  exact hstep

theorem alone_noResponse {msgBuf : Bytes} {store' : Store}
    (hanswers : answers store msgBuf none store') :
    PoolStep answers (alone store queue (.process 7 msgBuf) conn) (.process 7 none)
      (alone store' queue .idle conn) :=
  .noResponse _ 7 msgBuf store' [] [] rfl hanswers

end Alone

end PoolWorld

/-- The client sends its message, and the thread takes it. -/
def receivingEvents (message : Bytes) : List PoolEvent :=
  [.newConnection 7, .command 7 message, .client 7, .pop 7, .transfer 7]

/-- The thread answers, and the client reads the response. -/
def answeringEvents (response : Bytes) : List PoolEvent :=
  [.process 7 (some response), .transfer 7, .requeue 7, .client 7]

section Exchange

variable {Store : Type} {answers : Store → Bytes → Option Bytes → Store → Prop}
variable {store store' : Store} {message response : Bytes}
variable {condition : PoolWorld Store → PoolEvent → Prop}

theorem reaches_process (hlength : message.length ≤ maxSize)
    (hcondition : ∀ world, ∀ event ∈ receivingEvents message, condition world event) :
    Reaches (Restricted (PoolStep answers) condition) (.start store 1)
      (.alone store [] (.process 7 message) ⟨[message], [], [], [], [], .size [], []⟩) := by
  have extend : ∀ {world : PoolWorld Store} {event : PoolEvent} (next : PoolWorld Store),
      PoolStep answers world event next → event ∈ receivingEvents message →
        Reaches (Restricted (PoolStep answers) condition) (.start store 1) world →
          Reaches (Restricted (PoolStep answers) condition) (.start store 1) next :=
    fun next hstep hmem hrun => hrun.tail ⟨hstep, hcondition _ _ hmem⟩
  have hsize : Bytes.bigEndian (sizeBytes message.length) = message.length :=
    bigEndian_sizeBytes (hlength.trans_lt (by decide))
  have hheader : sizeBytes message.length ≠ [] := List.ne_nil_of_length_pos (by simp)
  have hframe : transmitted message = sizeBytes message.length ++ message :=
    transmitted_eq_frame (hlength.trans_lt (by decide))
  have hframed := extend
    (.alone store [7] .idle ⟨[message], transmitted message, [], [], [], .size [], []⟩)
    (PoolWorld.alone_command message) (by simp [receivingEvents])
    (.single ⟨PoolWorld.alone_newConnection, hcondition _ _ (by simp [receivingEvents])⟩)
  rw [hframe] at hframed
  have hsent := extend
    (.alone store [7] .idle
      ⟨[message], [], sizeBytes message.length ++ message, [], [], .size [], []⟩)
    (PoolWorld.alone_client (.send _ (sizeBytes message.length ++ message) []
      (List.append_ne_nil_of_left_ne_nil hheader _) (by simp)))
    (by simp [receivingEvents]) hframed
  have hpopped := extend
    (.alone store [] (.receiveSize 7 [])
      ⟨[message], [], sizeBytes message.length ++ message, [], [], .size [], []⟩)
    (.pop _ 7 [] [] [] rfl rfl) (by simp [receivingEvents]) hsent
  have hsizes := extend
    (.alone store [] (.receiveSize 7 (sizeBytes message.length))
      ⟨[message], [], message, [], [], .size [], []⟩)
    (PoolWorld.alone_transfer (.receiveSize _ [] _ message hheader (by simp) rfl))
    (by simp [receivingEvents]) hpopped
  have hsized := extend
    (.alone store [] (.receiveData 7 (Bytes.bigEndian (sizeBytes message.length)) [])
      ⟨[message], [], message, [], [], .size [], []⟩)
    (PoolWorld.alone_transfer (.sizeReceived _ _ (by simp) (by rwa [hsize])))
    (by simp [receivingEvents]) hsizes
  rw [hsize] at hsized
  have hdata : Reaches (Restricted (PoolStep answers) condition) (.start store 1)
      (.alone store [] (.receiveData 7 message.length message)
        ⟨[message], [], [], [], [], .size [], []⟩) := by
    by_cases hempty : message = []
    · subst hempty
      exact hsized
    · exact extend _
        (PoolWorld.alone_transfer (.receiveData _ _ [] message [] hempty (by simp) (by simp)))
        (by simp [receivingEvents]) hsized
  exact extend _ (PoolWorld.alone_transfer (.dataReceived _ _ message rfl))
    (by simp [receivingEvents]) hdata

theorem reaches_exchange (hlength : message.length ≤ maxSize) (hresponse : response ≠ [])
    (hsmall : response.length < 2 ^ 31) (hanswers : answers store message (some response) store')
    (hreceiving : ∀ world, ∀ event ∈ receivingEvents message, condition world event)
    (hanswering : ∀ world, ∀ event ∈ answeringEvents response, condition world event) :
    Reaches (Restricted (PoolStep answers) condition) (.start store 1)
      (.alone store' [7] .idle
        ⟨[message], [], [], [(message, response)], [], .size [], [response]⟩) := by
  have extend : ∀ {world : PoolWorld Store} {event : PoolEvent} (next : PoolWorld Store),
      PoolStep answers world event next → event ∈ answeringEvents response →
        Reaches (Restricted (PoolStep answers) condition) (.start store 1) world →
          Reaches (Restricted (PoolStep answers) condition) (.start store 1) next :=
    fun next hstep hmem hrun => hrun.tail ⟨hstep, hanswering _ _ hmem⟩
  have hsize : Bytes.bigEndian (sizeBytes response.length) = response.length :=
    bigEndian_sizeBytes (by omega)
  have hheader : sizeBytes response.length ≠ [] := List.ne_nil_of_length_pos (by simp)
  have hint := intSize_of_lt hsmall
  have hprocessed := extend _ (PoolWorld.alone_process hanswers) (by simp [answeringEvents])
    (reaches_process hlength hreceiving)
  have hsized := extend
    (.alone store' [] (.sendSize 7 [] response)
      ⟨[message], [], [], [(message, response)], sizeBytes response.length, .size [], []⟩)
    (PoolWorld.alone_transfer (.sendSize _ (sizeBytes response.length) [] response hheader))
    (by simp [answeringEvents]) (by simpa using hprocessed)
  have hsending := extend _ (PoolWorld.alone_transfer (.sizeSent _ response))
    (by simp [answeringEvents]) hsized
  rw [hint, List.take_length] at hsending
  have hrest := @Transfer.sendData 7
    ⟨[message], [], [], [(message, response)], sizeBytes response.length, .size [], []⟩
    response [] hresponse
  rw [List.append_nil] at hrest
  have hsent := extend _ (PoolWorld.alone_transfer hrest) (by simp [answeringEvents])
    hsending
  have hqueued := extend
    (.alone store' [7] .idle
      ⟨[message], [], [], [(message, response)], sizeBytes response.length ++ response,
        .size [], []⟩)
    (.requeue _ 7 [] [] rfl) (by simp [answeringEvents]) hsent
  have hheaded := extend
    (.alone store' [7] .idle
      ⟨[message], [], [], [(message, response)], response, .size (sizeBytes response.length),
        []⟩)
    (PoolWorld.alone_client
      (.receiveSize _ [] (sizeBytes response.length) response hheader rfl (by simp) rfl))
    (by simp [answeringEvents]) hqueued
  have hreading := extend _ (PoolWorld.alone_client (.sizeReceived _ _ rfl (by simp)))
    (by simp [answeringEvents]) hheaded
  rw [hsize] at hreading
  have hread := extend
    (.alone store' [7] .idle
      ⟨[message], [], [], [(message, response)], [], .data response.length response, []⟩)
    (PoolWorld.alone_client (.receiveData _ response.length [] response [] hresponse rfl
      (by simp [hint]) (by simp))) (by simp [answeringEvents]) hreading
  have hdone := extend _
    (PoolWorld.alone_client (.dataReceived _ response.length response rfl hint.symm))
    (by simp [answeringEvents]) hread
  simpa using hdone

end Exchange

def processes (lib : Libraries) (config : Config) (db : Database) (msgBuf : Bytes)
    (response : Option Bytes) (db' : Database) : Prop :=
  ∃ currTime, processCommand lib config currTime db msgBuf = (response, db')

theorem responds_receiving {Store : Type} {message : Bytes} (world : PoolWorld Store) :
    ∀ event ∈ receivingEvents message, Responds world event := by
  simp [receivingEvents, Responds]

/-- The reference vote, its receipt and one thread. -/
theorem connections_kept_while_responding_vote :
    ∃ world : PoolWorld Database,
      world.queue = [7] ∧ (world.connections 7).responses = [voteResponse] ∧
        (∀ sock, Placed world sock) ∧
          ∀ sock world',
            PoolStep (processes SmallElection.referenceLib SmallElection.reference.config) world
              (.process sock none) world' → ¬Placed world' sock := by
  obtain ⟨hpos, hsmall⟩ := voteResponse_length
  have hanswers : processes SmallElection.referenceLib SmallElection.reference.config _ _ _ _ :=
    ⟨5, processCommand_voteResponse⟩
  have hrun := reaches_exchange referenceVote_length.2 (List.ne_nil_of_length_pos hpos) hsmall
    hanswers responds_receiving (by simp [answeringEvents, Responds])
  exact ⟨_, rfl, by simp, connections_kept_while_responding hrun⟩

/-- Under a server key of 3072 bits not even an error can be answered. -/
def unsignedConfig : Config := (SmallElection.referenceWith [0, 12]).config

theorem processCommand_empty :
    processCommand SmallElection.referenceLib unsignedConfig 5
      SmallElection.reference.database [] = (none, SmallElection.reference.database) := by
  have hauth : authenticate SmallElection.referenceLib SmallElection.reference.database [] =
      .error "Invalid Voter!" := rfl
  have hsign := Transparent.rsaSign_3072_bits 0
    (typeAndData ResponseType.error.value (errorData "Invalid Voter!"))
  have hresponse : errorResponse SmallElection.referenceLib unsignedConfig "Invalid Voter!" =
      none := by
    rw [errorResponse, finishResponse]
    exact Option.bind_eq_none_iff.mpr fun signature hsigned =>
      absurd (hsign.symm.trans hsigned) (by simp)
  rw [processCommand, hauth]
  simp only [hresponse]

/-- A connection whose first command gets no response is neither closed nor queued nor
held. -/
theorem unanswered_connection_lost :
    ∃ world : PoolWorld Database,
      Reaches (PoolStep (processes SmallElection.referenceLib unsignedConfig))
          (.start SmallElection.reference.database 1) world ∧
        ¬Placed world 7 := by
  have hrun : Reaches
      (Restricted (PoolStep (processes SmallElection.referenceLib unsignedConfig)) Responds)
      (.start SmallElection.reference.database 1) (.alone _ [] (.process 7 []) _) :=
    reaches_process (Nat.zero_le _) responds_receiving
  have hanswers : processes SmallElection.referenceLib unsignedConfig
      SmallElection.reference.database [] none SmallElection.reference.database :=
    ⟨5, processCommand_empty⟩
  have hkept := (Kept.start SmallElection.reference.database 1 7).run hrun
  exact ⟨_, hrun.of_restricted.tail (PoolWorld.alone_noResponse hanswers),
    hkept.lost (PoolWorld.alone_noResponse hanswers)⟩

end VotingSystem.Server
