import VotingSystem.Server.SocketLoops

namespace VotingSystem.Server

open VotingSystem.Data VotingSystem.Storage

/-! A call that comes back late. -/

namespace LoopThread

/-- The thread is inside a loop on the socket that it entered too long ago. -/
def Overdue (now : Int) (sock : Nat) : LoopThread → Prop
  | waiting => False
  | receivingSize held loop =>
      held = sock ∧ loop.Continues ∧ connectionsLoopTimeoutSec < now - loop.time
  | receivingData held _ loop =>
      held = sock ∧ loop.Continues ∧ connectionsLoopTimeoutSec < now - loop.time
  | processing _ _ => False
  | sendingSize held _ loop =>
      held = sock ∧ loop.Continues ∧ connectionsLoopTimeoutSec < now - loop.time
  | sendingData held _ loop =>
      held = sock ∧ loop.Continues ∧ connectionsLoopTimeoutSec < now - loop.time

theorem Overdue.later {now later : Int} {sock : Nat} {thread : LoopThread}
    (hoverdue : thread.Overdue now sock) (hlater : now ≤ later) :
    thread.Overdue later sock := by
  cases thread with
  | waiting => exact hoverdue
  | receivingSize held loop => exact ⟨hoverdue.1, hoverdue.2.1, by have := hoverdue.2.2; omega⟩
  | receivingData held msgLen loop =>
      exact ⟨hoverdue.1, hoverdue.2.1, by have := hoverdue.2.2; omega⟩
  | processing held msgBuf => exact hoverdue
  | sendingSize held response loop =>
      exact ⟨hoverdue.1, hoverdue.2.1, by have := hoverdue.2.2; omega⟩
  | sendingData held response loop =>
      exact ⟨hoverdue.1, hoverdue.2.1, by have := hoverdue.2.2; omega⟩

end LoopThread

theorem RecvPass.eq_none {bufSize timeoutSec now : Int} {loop : RecvLoop bufSize}
    {waiting arrived : Bytes} {result : Option (RecvLoop bufSize)}
    (hpass : RecvPass timeoutSec now loop waiting result arrived)
    (hlate : timeoutSec < now - loop.time) : result = none := by
  cases hpass with
  | failed hcontinues => rfl
  | received chunk rest hcontinues hfits harrived hintime => omega
  | timeout chunk rest hcontinues hfits harrived hlate => rfl

theorem SendPass.eq_none {buf : Bytes} {bufSize timeoutSec now : Int}
    {loop : SendLoop buf bufSize} {before returned : Bytes}
    {result : Option (SendLoop buf bufSize)}
    (hpass : SendPass timeoutSec now loop before result returned)
    (hlate : timeoutSec < now - loop.time) : result = none := by
  cases hpass with
  | failed hcontinues => rfl
  | sent count hcontinues hfits hintime => omega
  | timeout count hcontinues hfits hlate => rfl

section Late

variable {Store : Type} {answers : Store → Bytes → Option Bytes → Store → Prop}

/-- What one thread does leaves the others where they are. -/
theorem getElem?_goOn {front back : List LoopThread} {thread thread' other : LoopThread}
    {place : Nat} (hthread : (front ++ thread :: back)[place]? = some other) :
    place = front.length ∧ thread = other ∨
      (front ++ thread' :: back)[place]? = some other := by
  by_cases hplace : place = front.length
  · subst hplace
    simp at hthread
    exact .inl ⟨rfl, hthread⟩
  · right
    rw [List.getElem?_append] at hthread ⊢
    split at hthread
    · rename_i hfront
      rw [if_pos hfront, hthread]
    · rename_i hfront
      rw [if_neg hfront]
      obtain ⟨index, hindex⟩ : ∃ index, place - front.length = index + 1 :=
        ⟨place - front.length - 1, by omega⟩
      rw [hindex, List.getElem?_cons_succ] at hthread ⊢
      exact hthread

/-- An overdue thread stays where it is until it closes its socket. -/
structure LateOrClosed (world : LoopWorld Store) (place sock : Nat) (thread : LoopThread)
    (closed : Nat) : Prop where
  sofar : closed ≤ world.closed.count sock
  late : closed < world.closed.count sock ∨
    world.threads[place]? = some thread ∧ thread.Overdue world.now sock

namespace LateOrClosed

variable {world world' : LoopWorld Store} {place sock closed : Nat} {thread : LoopThread}

theorem change (hlate : LateOrClosed world place sock thread closed)
    (hnow : world.now ≤ world'.now)
    (hclosed : world.closed.count sock ≤ world'.closed.count sock)
    (hthread : world.threads[place]? = some thread → thread.Overdue world.now sock →
      world'.threads[place]? = some thread ∨
        world.closed.count sock < world'.closed.count sock) :
    LateOrClosed world' place sock thread closed where
  sofar := hlate.sofar.trans hclosed
  late := by
    rcases hlate.late with hless | ⟨hplace, hoverdue⟩
    · exact .inl (hless.trans_le hclosed)
    · rcases hthread hplace hoverdue with hsame | hless
      · exact .inr ⟨hsame, hoverdue.later hnow⟩
      · exact .inl (hlate.sofar.trans_lt hless)

/-- A thread that is not overdue goes on. -/
theorem goOn (hlate : LateOrClosed world place sock thread closed)
    {moved moved' : LoopThread} {front back : List LoopThread}
    (hthreads : world.threads = front ++ moved :: back)
    (hmoved : ¬ moved.Overdue world.now sock) (hnow : world'.now = world.now)
    (hclosed : world'.closed = world.closed)
    (hthreads' : world'.threads = front ++ moved' :: back) :
    LateOrClosed world' place sock thread closed := by
  apply hlate.change hnow.ge (by rw [hclosed])
  intro hplace hoverdue
  rw [hthreads] at hplace
  rw [hthreads']
  rcases getElem?_goOn hplace with ⟨_, rfl⟩ | hsame
  · exact absurd hoverdue hmoved
  · exact .inl hsame

theorem settle (hlate : LateOrClosed world place sock thread closed) {other : Nat}
    {moved : LoopThread} {conn : Connection} {result : Option LoopThread}
    {front back : List LoopThread} (hthreads : world.threads = front ++ moved :: back)
    (hmoved : moved.Overdue world.now sock → other = sock ∧ result = none) :
    LateOrClosed (world.settle other conn front back result) place sock thread closed := by
  cases result with
  | some later =>
      exact hlate.goOn hthreads (fun hoverdue => nomatch (hmoved hoverdue).2) rfl rfl rfl
  | none =>
      have hcount : world.closed.count sock ≤
          (world.settle other conn front back none).closed.count sock :=
        (List.sublist_cons_self other world.closed).count_le sock
      refine @LateOrClosed.change _ _ (world.settle other conn front back none) _ _ _ _ hlate
        le_rfl hcount ?_
      intro hplace hoverdue
      rw [hthreads] at hplace
      rcases getElem?_goOn hplace with ⟨_, rfl⟩ | hsame
      · right
        rw [(hmoved hoverdue).1]
        simp [LoopWorld.settle]
      · exact .inl hsame

theorem step (hlate : LateOrClosed world place sock thread closed) {event : LoopEvent}
    (hstep : LoopStep answers world event world') :
    LateOrClosed world' place sock thread closed := by
  cases hstep with
  | newConnection other hnotOpen => exact hlate.change le_rfl le_rfl fun hplace _ => .inl hplace
  | pop other queue front back hqueue hthreads =>
      exact hlate.goOn hthreads (fun hoverdue => hoverdue) rfl rfl rfl
  | recvSize other loop result arrived front back hthreads hpass =>
      apply hlate.settle hthreads
      intro hoverdue
      exact ⟨hoverdue.1, by rw [hpass.eq_none hoverdue.2.2, Option.map_none]⟩
  | sizeReceived other loop front back hthreads hdone =>
      exact hlate.settle hthreads fun hoverdue => absurd hoverdue.2.1 hdone
  | recvData other msgLen loop result arrived front back hthreads hpass =>
      apply hlate.settle hthreads
      intro hoverdue
      exact ⟨hoverdue.1, by rw [hpass.eq_none hoverdue.2.2, Option.map_none]⟩
  | dataReceived other msgLen loop front back hthreads hdone =>
      exact hlate.goOn hthreads (fun hoverdue => hdone hoverdue.2.1) rfl rfl rfl
  | process other msgBuf response store front back hthreads hanswers =>
      exact hlate.goOn hthreads (fun hoverdue => hoverdue) rfl rfl rfl
  | noResponse other msgBuf store front back hthreads hanswers =>
      exact hlate.goOn hthreads (fun hoverdue => hoverdue) rfl rfl rfl
  | sendSize other response loop result returned front back hthreads hpass =>
      apply hlate.settle hthreads
      intro hoverdue
      exact ⟨hoverdue.1, by rw [hpass.eq_none hoverdue.2.2, Option.map_none]⟩
  | sizeSent other response loop front back hthreads hdone =>
      exact hlate.goOn hthreads (fun hoverdue => hdone hoverdue.2.1) rfl rfl rfl
  | sendData other response loop result returned front back hthreads hpass =>
      apply hlate.settle hthreads
      intro hoverdue
      exact ⟨hoverdue.1, by rw [hpass.eq_none hoverdue.2.2, Option.map_none]⟩
  | requeue other response loop front back hthreads hdone =>
      exact hlate.goOn hthreads (fun hoverdue => hdone hoverdue.2.1) rfl rfl rfl
  | command other message => exact hlate.change le_rfl le_rfl fun hplace _ => .inl hplace
  | client other conn hturn => exact hlate.change le_rfl le_rfl fun hplace _ => .inl hplace
  | advance later hlater => exact hlate.change hlater le_rfl fun hplace _ => .inl hplace

end LateOrClosed

/-- A thread that waits in a call for longer than the timeout never gets on with that
connection: it stays in the call, or the call returns and the socket is closed, whatever
has arrived. -/
theorem late_call_closes {world world' : LoopWorld Store} {place sock : Nat}
    {thread : LoopThread} (hthread : world.threads[place]? = some thread)
    (hoverdue : thread.Overdue world.now sock)
    (hrun : Reaches (LoopStep answers) world world') :
    world.closed.count sock < world'.closed.count sock ∨
      world'.threads[place]? = some thread := by
  have hlater : LateOrClosed world' place sock thread (world.closed.count sock) := by
    induction hrun with
    | refl => exact ⟨le_rfl, .inr ⟨hthread, hoverdue⟩⟩
    | tail _ hstep ih => exact ih.step hstep
  rcases hlater.late with hless | ⟨hplace, _⟩
  · exact .inl hless
  · exact .inr hplace

end Late

/-! A client that says nothing for two seconds. -/

/-- A worker takes a new connection, and time passes. -/
theorem exists_overdue {Store : Type}
    (answers : Store → Bytes → Option Bytes → Store → Prop) (store : Store) :
    ∃ world : LoopWorld Store,
      Reaches (LoopStep answers) (.start store 1 0) world ∧ world.closed = [] ∧
        world.threads = [.receivingSize 7 (.enter 4 0)] ∧ world.now = 2 := by
  have hconnected := Reaches.single
    (@LoopStep.newConnection Store answers (.start store 1 0) 7 rfl)
  have hpopped := hconnected.tail (.pop _ 7 [] [] [] rfl rfl)
  have hlater := hpopped.tail (.advance _ 2 (by decide : (0 : Int) ≤ 2))
  exact ⟨_, hlater, rfl, rfl, rfl⟩

/-- The call returns nothing, as the client has closed the connection. -/
theorem late_call_closes_eof :
    ∃ world world' : LoopWorld Database, world.closed = [] ∧ world'.threads = [.waiting] ∧
      (world.closed.count 7 < world'.closed.count 7 ∨
        world'.threads[0]? = some (.receivingSize 7 (.enter 4 0))) := by
  obtain ⟨world, _, hclosed, hthreads, hnow⟩ := exists_overdue
    (processes SmallElection.referenceLib SmallElection.reference.config)
    SmallElection.reference.database
  have hcontinues : (RecvLoop.enter 4 0).Continues := by
    unfold RecvLoop.Continues RecvLoop.enter
    decide
  have hlate : connectionsLoopTimeoutSec < world.now - (RecvLoop.enter 4 0).time := by
    rw [hnow]
    decide
  have hpass := @RecvPass.timeout 4 connectionsLoopTimeoutSec world.now (.enter 4 0)
    (world.connections 7).arrived [] _ hcontinues (by decide) rfl hlate
  have hstep := @LoopStep.recvSize Database
    (processes SmallElection.referenceLib SmallElection.reference.config) world 7 _ _ _ [] []
    hthreads hpass
  have hthread : world.threads[0]? = some (.receivingSize 7 (.enter 4 0)) := by
    rw [hthreads]
    rfl
  exact ⟨world, _, hclosed, rfl, late_call_closes hthread ⟨rfl, hcontinues, hlate⟩
    (.single hstep)⟩

end VotingSystem.Server
