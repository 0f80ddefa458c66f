import VotingSystem.Data.Queue
import VotingSystem.Server.Conversation

namespace VotingSystem.Server

open VotingSystem.Data VotingSystem.Storage

/-! The queue of the pool. -/

namespace PoolEvent

def pushed : PoolEvent → Option Nat
  | newConnection sock => some sock
  | requeue sock => some sock
  | _ => none

def popped : PoolEvent → Option Nat
  | pop sock => some sock
  | _ => none

end PoolEvent

section Order

variable {Store : Type} {answers : Store → Bytes → Option Bytes → Store → Prop}

theorem pool_fifo : Fifo (PoolStep answers) PoolWorld.queue PoolEvent.pushed PoolEvent.popped where
  moves := by
    intro source label target hstep
    cases hstep with
    | newConnection sock hnotOpen => rfl
    | pop sock queue front back hqueue hworkers => simp [hqueue, PoolEvent.pushed, PoolEvent.popped]
    | transfer sock worker worker' conn front back hworkers htransfer => exact List.append_nil _
    | process sock msgBuf response store front back hworkers hanswers => exact List.append_nil _
    | noResponse sock msgBuf store front back hworkers hanswers => exact List.append_nil _
    | requeue sock front back hworkers => rfl
    | socketError sock worker front back hworkers hsock hon => exact List.append_nil _
    | tooLarge sock got front back hworkers hgot hsize => exact List.append_nil _
    | command sock message => exact List.append_nil _
    | client sock conn hturn => exact List.append_nil _

/-- No connection is overtaken: a connection in the queue waits exactly until those before
it are popped, however often the others come back. -/
theorem connection_not_overtaken {world world' : PoolWorld Store} {events : List PoolEvent}
    {ahead behind : List Nat} {sock : Nat} (hqueue : world.queue = ahead ++ sock :: behind)
    (hrun : Trace (PoolStep answers) world events world') :
    events.filterMap PoolEvent.popped <+: ahead ∧ sock ∈ world'.queue ∨
      ahead ++ [sock] <+: events.filterMap PoolEvent.popped :=
  pool_fifo.waits hqueue hrun

end Order

/-- The connection of the second of two clients, when the first is popped. -/
theorem connection_not_overtaken_second :
    ∃ world world' : PoolWorld Database, world.queue = [7, 8] ∧ world'.queue = [8] ∧
      ([PoolEvent.pop 7].filterMap PoolEvent.popped <+: [7] ∧ 8 ∈ world'.queue ∨
        [7] ++ [8] <+: [PoolEvent.pop 7].filterMap PoolEvent.popped) := by
  let world : PoolWorld Database :=
    { PoolWorld.start SmallElection.reference.database 1 with
      queue := [7, 8]
      handed := [8, 7] }
  have hpop := @PoolStep.pop Database
    (processes SmallElection.referenceLib SmallElection.reference.config) world 7 [8] [] []
    rfl rfl
  exact ⟨world, _, rfl, rfl, @connection_not_overtaken _ _ _ _ _ [7] [] 8 rfl
    (.tail .refl hpop)⟩

end VotingSystem.Server
