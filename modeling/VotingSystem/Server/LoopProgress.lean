import VotingSystem.Server.LateCalls
import VotingSystem.Server.PoolProgress

namespace VotingSystem.Server

open VotingSystem.Data VotingSystem.Protos VotingSystem.Storage

/-! How the threads come to answer the commands they have, one call of the kernel at a
time. -/

section Calm

variable {Store : Type}

/-- No call on the socket returns an error, or too late. -/
structure TimelyStep (answers : Store → Bytes → Option Bytes → Store → Prop) (sock : Nat)
    (world : LoopWorld Store) (event : LoopEvent) (world' : LoopWorld Store) : Prop where
  step : LoopStep answers world event world'
  call : event = .call sock → world'.closed = world.closed

/-- The commands of the connection fit as well, and its responses are produced, in the
range of an `int`. -/
structure CalmStep (answers : Store → Bytes → Option Bytes → Store → Prop) (sock : Nat)
    (world : LoopWorld Store) (event : LoopEvent) (world' : LoopWorld Store) : Prop
    extends TimelyStep answers sock world event world' where
  process : ∀ response, event = .process sock response →
    ∃ bytes, response = some bytes ∧ bytes.length < 2 ^ 31
  command : ∀ message, event = .command sock message → message.length ≤ maxSize

def LoopEvent.Settles : LoopEvent → Prop
  | .newConnection _ => False
  | .command _ _ => False
  | _ => True

/-- What goes on for the pool. A call that moves no bytes does not count, nor does the
time. -/
def Changes (world : LoopWorld Store) (taken : LoopEvent × LoopWorld Store) : Prop :=
  taken.2.pool ≠ world.pool ∧ ∀ sock, taken.1 = .client sock → sock ∈ world.handed

end Calm

section Covered

variable {Store : Type} {answers : Store → Bytes → Option Bytes → Store → Prop}
variable {sock numThreads : Nat} {world world' : LoopWorld Store} {event : LoopEvent}

theorem LoopEvent.Covers.settling {closes : Prop} {poolEvent : PoolEvent}
    (hcovers : event.Covers closes poolEvent) (hsettling : event.Settles)
    (pool : PoolWorld Store) : Settling pool poolEvent := by
  cases event with
  | newConnection other => exact hsettling.elim
  | call other =>
      rcases hcovers with rfl | ⟨rfl, _⟩
      · trivial
      · trivial
  | goOn other =>
      rcases hcovers with rfl | rfl
      · trivial
      · trivial
  | command other message => exact hsettling.elim
  | advance later => exact hcovers.elim
  | _ =>
      cases hcovers
      trivial

theorem LoopEvent.Covers.advances {closes : Prop} {poolEvent : PoolEvent} {handed : List Nat}
    (hcovers : event.Covers closes poolEvent) (hsettling : event.Settles)
    (hclient : ∀ other, event = .client other → other ∈ handed) :
    Advances handed poolEvent := by
  cases event with
  | newConnection other => exact hsettling.elim
  | call other =>
      rcases hcovers with rfl | ⟨rfl, _⟩
      · trivial
      · trivial
  | goOn other =>
      rcases hcovers with rfl | rfl
      · trivial
      · trivial
  | command other message => exact hsettling.elim
  | advance later => exact hcovers.elim
  | client other =>
      cases hcovers
      exact hclient other rfl
  | _ =>
      cases hcovers
      trivial

theorem CalmStep.undisturbed (hcalm : CalmStep answers sock world event world')
    {poolEvent : PoolEvent} (hcovers : event.Covers (world'.closed ≠ world.closed) poolEvent)
    (pool : PoolWorld Store) : Undisturbed sock pool poolEvent := by
  cases event with
  | call other =>
      rcases hcovers with rfl | ⟨rfl, hcloses⟩
      · trivial
      · rintro rfl
        exact hcloses (hcalm.call rfl)
  | goOn other =>
      rcases hcovers with rfl | rfl
      · trivial
      · trivial
  | process other response =>
      cases hcovers
      rintro rfl
      exact hcalm.process response rfl
  | command other message =>
      cases hcovers
      rintro rfl
      exact hcalm.command message rfl
  | advance later => exact hcovers.elim
  | _ =>
      cases hcovers
      trivial

theorem CalmStep.reaches_pool (hcalm : CalmStep answers sock world event world') :
    Reaches (Restricted (PoolStep answers) (Undisturbed sock)) world.pool world'.pool :=
  hcalm.step.reaches_pool.weaken fun pool _ hcovers => hcalm.undisturbed hcovers pool

theorem CalmStep.run_pool {start : LoopWorld Store}
    (hrun : Reaches (CalmStep answers sock) start world) :
    Reaches (Restricted (PoolStep answers) (Undisturbed sock)) start.pool world.pool := by
  induction hrun with
  | refl => exact .refl
  | tail _ hcalm ih => exact ih.trans hcalm.reaches_pool

theorem CalmStep.run_settling {start : LoopWorld Store}
    (hrun : Reaches (Restricted (CalmStep answers sock) fun _ => LoopEvent.Settles) start
      world) :
    Reaches
      (Restricted (PoolStep answers) fun pool event =>
        Settling pool event ∧ Undisturbed sock pool event) start.pool world.pool := by
  induction hrun with
  | refl => exact .refl
  | tail _ hrestricted ih =>
      obtain ⟨hcalm, hsettling⟩ := hrestricted
      exact ih.trans (hcalm.step.reaches_pool.weaken fun pool _ hcovers =>
        ⟨hcovers.settling hsettling pool, hcalm.undisturbed hcovers pool⟩)

/-- Every step that changes something for the pool leaves less work. -/
theorem loop_ranked (numThreads : Nat) :
    Ranked (Traced (Restricted (LoopStep answers) fun _ => LoopEvent.Settles))
      (fun world => world.pool.Serviceable numThreads) (fun world => ¬ world.pool.AtRest)
      Changes fun world => world.pool.work where
  preserved := by
    intro source label target hsource _ htraced
    obtain ⟨⟨hstep, _⟩, _⟩ := htraced
    exact hstep.reaches_pool.of_restricted.invariant hsource fun hpool hnext =>
      hpool.step hnext
  decreases := by
    intro source label target hsource _ htraced hchanges
    obtain ⟨⟨hstep, hsettling⟩, htarget⟩ := htraced
    obtain ⟨hchange, hclient⟩ := hchanges
    rw [htarget] at hchange
    exact hsource.work_lt (hstep.reaches_pool.weaken fun _ _ hcovers =>
      hcovers.advances hsettling hclient) hchange
  nonincreasing := by
    intro source label target hsource _ htraced
    obtain ⟨⟨hstep, hsettling⟩, _⟩ := htraced
    exact (hsource.work_le (hstep.reaches_pool.weaken fun pool _ hcovers =>
      hcovers.settling hsettling pool)).2

end Covered

/-! A thread that does not wait for bytes can go on, or it is late and closes. -/

theorem RecvLoop.exists_pass {bufSize timeoutSec : Int} (loop : RecvLoop bufSize) (now : Int)
    {arrived : Bytes} (hcontinues : loop.Continues) (harrived : arrived ≠ []) :
    ∃ result rest, RecvPass timeoutSec now loop arrived result rest ∧
      (result = none → timeoutSec < now - loop.time) ∧
        ∀ later ∈ result, later.buf ≠ loop.buf := by
  obtain ⟨byte, rest, rfl⟩ := List.exists_cons_of_ne_nil harrived
  have hfits : loop.buf.length + [byte].length ≤ bufSize.toNat := by
    unfold RecvLoop.Continues at hcontinues
    rw [List.length_singleton]
    omega
  by_cases hlate : timeoutSec < now - loop.time
  · exact ⟨none, rest, .timeout [byte] rest hcontinues hfits rfl hlate, fun _ => hlate,
      by simp⟩
  · refine ⟨_, rest, .received [byte] rest hcontinues hfits rfl (by omega), by simp, ?_⟩
    intro later hlater
    rw [← Option.mem_some.mp hlater]
    simp [RecvLoop.received]

theorem SendLoop.exists_pass {buf : Bytes} {bufSize timeoutSec : Int}
    (loop : SendLoop buf bufSize) (now : Int) (returned : Bytes) (hcontinues : loop.Continues)
    (hbuf : bufSize.toNat ≤ buf.length) :
    ∃ result later, SendPass timeoutSec now loop returned result later ∧
      (result = none → timeoutSec < now - loop.time) ∧
        ∀ later ∈ result, later.rest ≠ loop.rest := by
  have hfits : loop.atByte + 1 ≤ bufSize.toNat := by
    unfold SendLoop.Continues at hcontinues
    omega
  by_cases hlate : timeoutSec < now - loop.time
  · exact ⟨none, _, .timeout 1 hcontinues hfits hlate, fun _ => hlate, by simp⟩
  · refine ⟨_, _, .sent 1 hcontinues hfits (by omega), by simp, ?_⟩
    intro later hlater hsame
    rw [← Option.mem_some.mp hlater] at hsame
    have hlength := congrArg List.length hsame
    simp only [SendLoop.rest, SendLoop.sent, List.length_drop, List.length_take] at hlength
    omega

/-- The steps of a thread outside of the kernel. -/
def LoopEvent.GoesOn : LoopEvent → Prop
  | .pop _ => True
  | .goOn _ => True
  | .process _ _ => True
  | .requeue _ => True
  | _ => False

section Enabled

variable {Store : Type} {answers : Store → Bytes → Option Bytes → Store → Prop}
variable {sock numThreads : Nat} {world world' : LoopWorld Store}
variable {front back : List LoopThread} {thread thread' : LoopThread}

theorem pool_ne_of_worker (hthreads : world.threads = front ++ thread :: back)
    (hthreads' : world'.threads = front ++ thread' :: back)
    (hworker : thread'.worker ≠ thread.worker) : world'.pool ≠ world.pool := by
  intro hpool
  have hworkers := congrArg PoolWorld.workers hpool
  rw [pool_workers hthreads, pool_workers hthreads', List.append_cancel_left_eq,
    List.cons.injEq] at hworkers
  exact hworker hworkers.1

theorem exists_change_of_goOn {event : LoopEvent}
    (hthreads : world.threads = front ++ thread :: back)
    (hstep : LoopStep answers world event world')
    (hthreads' : world'.threads = front ++ thread' :: back)
    (hworker : thread'.worker ≠ thread.worker) (hevent : event.GoesOn) :
    ∃ event next, Restricted (TimelyStep answers sock) (fun _ => LoopEvent.Settles) world event
      next ∧ Changes world (event, next) := by
  refine ⟨event, world', ⟨⟨hstep, ?_⟩, ?_⟩, pool_ne_of_worker hthreads hthreads' hworker, ?_⟩
  · rintro rfl
    exact hevent.elim
  · cases event with
    | newConnection other => exact hevent
    | command other message => exact hevent
    | _ => trivial
  · rintro other rfl
    exact hevent.elim

/-- A call that fails on another socket, or moves bytes. -/
theorem exists_change_of_call {other : Nat} {conn : Connection} {result : Option LoopThread}
    (hthreads : world.threads = front ++ thread :: back)
    (hstep : LoopStep answers world (.call other) (world.settle other conn front back result))
    (hworker : thread.worker ≠ .idle)
    (hresult : ∀ later ∈ result, later.worker ≠ thread.worker)
    (hfails : result = none → other ≠ sock) :
    ∃ event next, Restricted (TimelyStep answers sock) (fun _ => LoopEvent.Settles) world event
      next ∧ Changes world (event, next) := by
  refine ⟨_, _, ⟨⟨hstep, ?_⟩, trivial⟩, ?_, by simp⟩
  · intro hcall
    cases hcall
    cases result with
    | none => exact absurd rfl (hfails rfl)
    | some later => rfl
  · cases result with
    | none =>
        exact @pool_ne_of_worker _ _ (world.settle other conn front back none) _ _ _ .waiting
          hthreads rfl hworker.symm
    | some later =>
        exact @pool_ne_of_worker _ _ (world.settle other conn front back (some later)) _ _ _
          later hthreads rfl (hresult later rfl)

/-- A thread with a socket goes on, unless it waits for bytes that are not there. -/
theorem exists_change_of_thread
    (htotal : ∀ store msgBuf, ∃ response store', answers store msgBuf response store')
    {other : Nat} (hthreads : world.threads = front ++ thread :: back)
    (hsock : thread.worker.sock? = some other)
    (hintime : ¬ thread.Overdue world.now sock)
    (hbusy : ¬ (thread.worker.AwaitsBytes ∧ (world.connections other).arrived = [])) :
    ∃ event next, Restricted (TimelyStep answers sock) (fun _ => LoopEvent.Settles) world event
      next ∧ Changes world (event, next) := by
  cases thread with
  | waiting => cases hsock
  | receivingSize held loop =>
      cases hsock
      by_cases hcontinues : loop.Continues
      · have hshort : loop.buf.length < 4 := Int.ofNat_lt.mp hcontinues
        obtain ⟨result, rest, hpass, hlate, hmoved⟩ := loop.exists_pass world.now hcontinues
          fun hnone => hbusy ⟨hshort, hnone⟩
        refine exists_change_of_call hthreads
          (.recvSize world other loop result rest front back hthreads hpass)
          (by simp [LoopThread.worker]) ?_ ?_
        · intro thread hthread
          obtain ⟨later, hlater, rfl⟩ := Option.map_eq_some_iff.mp hthread
          simpa [LoopThread.worker] using hmoved later hlater
        · rintro hfails rfl
          exact hintime ⟨rfl, hcontinues, hlate (Option.map_eq_none_iff.mp hfails)⟩
      · have hstep := @LoopStep.sizeReceived Store answers world other loop front back hthreads
          hcontinues
        by_cases hsize : maxSize < Bytes.bigEndian loop.buf
        · rw [if_pos hsize] at hstep
          exact exists_change_of_goOn hthreads hstep rfl
            (by simp [LoopThread.worker]) trivial
        · rw [if_neg hsize] at hstep
          exact exists_change_of_goOn hthreads hstep rfl
            (by simp [LoopThread.worker]) trivial
  | receivingData held msgLen loop =>
      cases hsock
      by_cases hcontinues : loop.Continues
      · have hshort : loop.buf.length < msgLen := Int.ofNat_lt.mp hcontinues
        obtain ⟨result, rest, hpass, hlate, hmoved⟩ := loop.exists_pass world.now hcontinues
          fun hnone => hbusy ⟨hshort, hnone⟩
        refine exists_change_of_call hthreads
          (.recvData world other msgLen loop result rest front back hthreads hpass)
          (by simp [LoopThread.worker]) ?_ ?_
        · intro thread hthread
          obtain ⟨later, hlater, rfl⟩ := Option.map_eq_some_iff.mp hthread
          simpa [LoopThread.worker] using hmoved later hlater
        · rintro hfails rfl
          exact hintime ⟨rfl, hcontinues, hlate (Option.map_eq_none_iff.mp hfails)⟩
      · exact exists_change_of_goOn hthreads
          (.dataReceived world other msgLen loop front back hthreads hcontinues) rfl
          (by simp [LoopThread.worker]) trivial
  | processing held msgBuf =>
      cases hsock
      obtain ⟨response, store, hanswers⟩ := htotal world.store msgBuf
      cases response with
      | none =>
          exact exists_change_of_goOn hthreads
            (.noResponse world other msgBuf store front back hthreads hanswers) rfl
            (by simp [LoopThread.worker]) trivial
      | some response =>
          exact exists_change_of_goOn hthreads
            (.process world other msgBuf response store front back hthreads hanswers) rfl
            (by simp [LoopThread.worker]) trivial
  | sendingSize held response loop =>
      cases hsock
      by_cases hcontinues : loop.Continues
      · obtain ⟨result, returned, hpass, hlate, hmoved⟩ := loop.exists_pass world.now
          (world.connections other).returned hcontinues (by simp)
        refine exists_change_of_call hthreads
          (.sendSize world other response loop result returned front back hthreads hpass)
          (by simp [LoopThread.worker]) ?_ ?_
        · intro thread hthread
          obtain ⟨later, hlater, rfl⟩ := Option.map_eq_some_iff.mp hthread
          simpa [LoopThread.worker] using hmoved later hlater
        · rintro hfails rfl
          exact hintime ⟨rfl, hcontinues, hlate (Option.map_eq_none_iff.mp hfails)⟩
      · exact exists_change_of_goOn hthreads
          (.sizeSent world other response loop front back hthreads hcontinues) rfl
          (by simp [LoopThread.worker]) trivial
  | sendingData held response loop =>
      cases hsock
      by_cases hcontinues : loop.Continues
      · obtain ⟨result, returned, hpass, hlate, hmoved⟩ := loop.exists_pass world.now
          (world.connections other).returned hcontinues
          (by rw [intOfSize_toNat]; exact intSize_le response.length)
        refine exists_change_of_call hthreads
          (.sendData world other response loop result returned front back hthreads hpass)
          (by simp [LoopThread.worker]) ?_ ?_
        · intro thread hthread
          obtain ⟨later, hlater, rfl⟩ := Option.map_eq_some_iff.mp hthread
          simpa [LoopThread.worker] using hmoved later hlater
        · rintro hfails rfl
          exact hintime ⟨rfl, hcontinues, hlate (Option.map_eq_none_iff.mp hfails)⟩
      · exact exists_change_of_goOn hthreads
          (.requeue world other response loop front back hthreads hcontinues) rfl
          (by simp [LoopThread.worker]) trivial

/-- Before the pool is at rest something can change, if no call on the socket is late. -/
theorem exists_change
    (htotal : ∀ store msgBuf, ∃ response store', answers store msgBuf response store')
    (hworld : world.pool.Serviceable numThreads)
    (hintime : ∀ thread ∈ world.threads, ¬ thread.Overdue world.now sock)
    (hbusy : ¬ world.pool.AtRest) :
    ∃ event next, Restricted (TimelyStep answers sock) (fun _ => LoopEvent.Settles) world event
      next ∧ Changes world (event, next) := by
  by_cases hconnections : ∀ other ∈ world.handed, (world.connections other).AtRest
  · obtain ⟨worker, hworker, hgoes⟩ : ∃ worker ∈ world.pool.workers,
        ¬ (worker = .idle ∧ world.queue = [] ∨ worker.AwaitsBytes ∧
          ∀ other, worker.sock? = some other → (world.connections other).arrived = []) := by
      by_contra hnone
      push Not at hnone
      exact hbusy ⟨hconnections, hnone⟩
    obtain ⟨thread, hthread, rfl⟩ := List.mem_map.mp hworker
    obtain ⟨front, back, hthreads⟩ := List.append_of_mem hthread
    cases hsock : thread.worker.sock? with
    | none =>
        have hwaiting : thread = .waiting := by
          cases thread with
          | waiting => rfl
          | _ => cases hsock
        subst hwaiting
        cases hqueue : world.queue with
        | nil => exact absurd (.inl ⟨rfl, hqueue⟩) hgoes
        | cons other queue =>
            exact exists_change_of_goOn hthreads
              (.pop world other queue front back hqueue hthreads) rfl
              (by simp [LoopThread.worker]) trivial
    | some other =>
        apply exists_change_of_thread htotal hthreads hsock (hintime thread hthread)
        rintro ⟨hawaits, harrived⟩
        refine hgoes (.inr ⟨hawaits, fun another hanother => ?_⟩)
        rw [hsock] at hanother
        cases hanother
        exact harrived
  · push Not at hconnections
    obtain ⟨other, hhanded, hconn⟩ := hconnections
    obtain ⟨conn, hturn⟩ := exists_clientTurn (hworld.readers other) hconn
    refine ⟨.client other, _, ⟨⟨.client world other conn hturn, by simp⟩, trivial⟩, ?_, ?_⟩
    · intro hpool
      have hless := hturn.work_lt
      have hsame := congrFun (congrArg PoolWorld.connections hpool) other
      simp only [LoopWorld.pool, LoopWorld.setConnection, Function.update_self] at hsame
      rw [hsame] at hless
      exact hless.false
    · intro another hanother
      cases hanother
      exact hhanded

end Enabled

theorem calmStep_of_exchange {Store : Type}
    {answers : Store → Bytes → Option Bytes → Store → Prop} {message response : Bytes}
    (hlength : message.length ≤ maxSize) (hsmall : response.length < 2 ^ 31)
    {world world' : LoopWorld Store} {event : LoopEvent}
    (hstep : LoopStep answers world event world') (hclosed : world'.closed = world.closed)
    (hevent : event ∈ loopExchangeEvents message response) :
    CalmStep answers 7 world event world' where
  step := hstep
  call := fun _ => hclosed
  process := by
    rintro other rfl
    obtain rfl : other = some response := by simpa [loopExchangeEvents] using hevent
    exact ⟨response, rfl, hsmall⟩
  command := by
    rintro other rfl
    obtain rfl : other = message := by simpa [loopExchangeEvents] using hevent
    exact hlength

section Idle

variable {Store : Type} {answers : Store → Bytes → Option Bytes → Store → Prop}
variable {store : Store} {conn : Connection} {now : Int}

theorem LoopWorld.alone_takes :
    PendingRun (Traced (Restricted (CalmStep answers 7) fun _ => LoopEvent.Settles))
      (fun world => ¬ world.pool.AtRest) Changes (.alone store [7] .waiting conn now) 1
      (.alone store [] (.receivingSize 7 (.enter 4 now)) conn now) := by
  have hpop : LoopStep answers (.alone store [7] .waiting conn now) (.pop 7)
      (.alone store [] (.receivingSize 7 (.enter 4 now)) conn now) :=
    .pop _ 7 [] [] [] rfl rfl
  have hcalm : CalmStep answers 7 _ _ _ := ⟨⟨hpop, fun _ => rfl⟩, by simp, by simp⟩
  have hsettles : (LoopEvent.pop 7).Settles := trivial
  have hbusy : ¬ (alone store [7] .waiting conn now).pool.AtRest := by
    intro hrest
    rcases hrest.workers .idle List.mem_cons_self with ⟨_, hqueue⟩ | ⟨hawaits, _⟩
    · exact List.cons_ne_nil 7 [] hqueue
    · exact hawaits
  have hchanges : Changes (alone store [7] .waiting conn now)
      (.pop 7, alone store [] (.receivingSize 7 (.enter 4 now)) conn now) := by
    refine ⟨@pool_ne_of_worker _ (alone store [7] .waiting conn now) _ [] [] _ _ rfl rfl ?_, ?_⟩
    · simp [LoopThread.worker]
    · simp
  exact .counted .refl hbusy ⟨⟨hcalm, hsettles⟩, rfl⟩ hchanges

theorem LoopWorld.alone_atRest (hconn : conn.AtRest) (harrived : conn.arrived = []) :
    (alone store [] (.receivingSize 7 (.enter 4 now)) conn now).pool.AtRest := by
  have hhere : (alone store [] (.receivingSize 7 (.enter 4 now)) conn now).pool.connections 7 =
      conn := by
    simp [pool, alone]
  constructor
  · intro other hother
    obtain rfl : other = 7 := by simpa [pool, alone] using hother
    rwa [hhere]
  · intro worker hworker
    obtain rfl : worker = .receiveSize 7 [] := by
      simpa [pool, alone, LoopThread.worker, RecvLoop.enter] using hworker
    refine .inr ⟨Nat.zero_lt_succ 3, fun other hother => ?_⟩
    cases hother
    rwa [hhere]

end Idle

end VotingSystem.Server
