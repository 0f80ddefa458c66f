import VotingSystem.Data.Progress
import VotingSystem.Data.Slots
import VotingSystem.Server.PoolQueue

namespace VotingSystem.Server

open VotingSystem.Data VotingSystem.Storage

/-! How much work a pool has left, and when it can go on with it. -/

/-- What the answer to a command costs at most. -/
def answerWork : Nat := 3 * 2 ^ 31 + 16

/-- What the way of a byte to a worker costs, with what the worker can then owe for it. -/
def byteWork : Nat := answerWork + 1

namespace Worker

def work : Worker → Nat
  | idle => 0
  | receiveSize _ got => answerWork * got.length + 1
  | receiveData _ _ _ => answerWork + 1
  | process _ _ => answerWork
  | sendSize _ rest response => 3 * rest.length + 3 * intSize response.length + 4
  | sendData _ rest => 3 * rest.length + 3

/-- No more than `socketRecv` was asked for. -/
def WithinSize : Worker → Prop
  | receiveSize _ got => got.length ≤ 4
  | receiveData _ msgLen got => got.length ≤ msgLen
  | _ => True

end Worker

namespace Reader

def work : Reader → Nat
  | size got => got.length
  | data _ _ => 1

def WithinSize : Reader → Prop
  | size got => got.length ≤ 4
  | data msgLen got => got.length ≤ intSize msgLen

/-- In the middle of a `socketRecv`. -/
def AwaitsBytes : Reader → Prop
  | size got => got.length < 4
  | data msgLen got => got.length < intSize msgLen

end Reader

def Connection.work (conn : Connection) : Nat :=
  (byteWork + 1) * conn.outgoing.length + byteWork * conn.arrived.length +
    2 * conn.returned.length + conn.reader.work

theorem Worker.work_idle : Worker.idle.work = 0 := rfl

theorem Connection.work_fresh : Connection.fresh.work = 0 := rfl

theorem intSize_lt (size : Nat) : intSize size < 2 ^ 31 := by
  rw [intSize]
  split
  · assumption
  · decide

section Work

variable {sock : Nat} {conn conn' : Connection} {worker worker' : Worker}

theorem Transfer.work_lt (htransfer : Transfer sock conn worker conn' worker') :
    worker'.work + conn'.work < worker.work + conn.work := by
  cases htransfer with
  | receiveSize got chunk arrived hchunk hsize harrived =>
      have hpos := List.length_pos_iff.mpr hchunk
      simp only [Worker.work, Connection.work, harrived, List.length_append, Nat.mul_add]
      have hbyte : byteWork * chunk.length = answerWork * chunk.length + chunk.length :=
        Nat.succ_mul _ _
      omega
  | sizeReceived got hgot hsize =>
      simp only [Worker.work, hgot, answerWork]
      omega
  | receiveData msgLen got chunk arrived hchunk hsize harrived =>
      have hpos := List.length_pos_iff.mpr hchunk
      have hbyte : byteWork * chunk.length = answerWork * chunk.length + chunk.length :=
        Nat.succ_mul _ _
      simp only [Worker.work, Connection.work, harrived, List.length_append, Nat.mul_add]
      omega
  | dataReceived msgLen got hgot =>
      simp only [Worker.work]
      omega
  | sendSize chunk rest response hchunk =>
      have hpos := List.length_pos_iff.mpr hchunk
      simp only [Worker.work, Connection.work, List.length_append]
      omega
  | sizeSent response =>
      have htake := List.length_take_le (intSize response.length) response
      simp only [Worker.work, List.length_nil]
      omega
  | sendData chunk rest hchunk =>
      have hpos := List.length_pos_iff.mpr hchunk
      simp only [Worker.work, Connection.work, List.length_append]
      omega

theorem Transfer.withinSize (htransfer : Transfer sock conn worker conn' worker') :
    worker'.WithinSize ∧ conn'.reader = conn.reader := by
  cases htransfer with
  | receiveSize got chunk arrived hchunk hsize harrived =>
      exact ⟨by simpa only [Worker.WithinSize, List.length_append] using hsize, rfl⟩
  | sizeReceived got hgot hsize => exact ⟨Nat.zero_le _, rfl⟩
  | receiveData msgLen got chunk arrived hchunk hsize harrived =>
      exact ⟨by simpa only [Worker.WithinSize, List.length_append] using hsize, rfl⟩
  | _ => exact ⟨trivial, rfl⟩

theorem ClientTurn.work_lt (hturn : ClientTurn conn conn') : conn'.work < conn.work := by
  cases hturn with
  | send chunk outgoing hchunk houtgoing =>
      have hpos := List.length_pos_iff.mpr hchunk
      simp only [Connection.work, houtgoing, List.length_append, Nat.mul_add, Nat.succ_mul]
      omega
  | receiveSize got chunk returned hchunk hreader hsize hreturned =>
      have hpos := List.length_pos_iff.mpr hchunk
      simp only [Connection.work, hreader, hreturned, Reader.work, List.length_append]
      omega
  | sizeReceived got hreader hgot =>
      simp only [Connection.work, hreader, Reader.work]
      omega
  | receiveData msgLen got chunk returned hchunk hreader hsize hreturned =>
      have hpos := List.length_pos_iff.mpr hchunk
      simp only [Connection.work, hreader, hreturned, Reader.work, List.length_append]
      omega
  | dataReceived msgLen got hreader hgot =>
      simp only [Connection.work, hreader, Reader.work, List.length_nil]
      omega

theorem ClientTurn.withinSize (hturn : ClientTurn conn conn')
    (hreader : conn.reader.WithinSize) : conn'.reader.WithinSize := by
  cases hturn with
  | send chunk outgoing hchunk houtgoing => exact hreader
  | receiveSize got chunk returned hchunk hsized hsize hreturned =>
      simpa only [Reader.WithinSize, List.length_append] using hsize
  | sizeReceived got hsized hgot => exact Nat.zero_le _
  | receiveData msgLen got chunk returned hchunk hsized hsize hreturned =>
      simpa only [Reader.WithinSize, List.length_append] using hsize
  | dataReceived msgLen got hsized hgot => exact Nat.zero_le _

theorem Worker.work_pos (hon : worker.OnSocket) : 0 < worker.work := by
  cases worker with
  | idle => exact hon.elim
  | process sock msgBuf => exact hon.elim
  | _ => exact Nat.succ_pos _

end Work

/-- What every run keeps of a pool, whatever fails. -/
structure PoolWorld.Serviceable {Store : Type} (numThreads : Nat) (world : PoolWorld Store) :
    Prop where
  threads : world.workers.length = numThreads
  places_le : ∀ sock, world.places sock ≤ world.handed.count sock
  workers : ∀ worker ∈ world.workers, worker.WithinSize
  readers : ∀ sock, (world.connections sock).reader.WithinSize

namespace PoolWorld.Serviceable

variable {Store : Type} {answers : Store → Bytes → Option Bytes → Store → Prop}
variable {numThreads sock : Nat} {world world' : PoolWorld Store}
variable {front back : List Worker} {worker : Worker}

theorem start (store : Store) (numThreads : Nat) :
    (PoolWorld.start store numThreads).Serviceable numThreads where
  threads := List.length_replicate
  places_le := fun sock => (Kept.start store numThreads sock).handed.ge
  workers := by
    intro worker hworker
    rw [List.eq_of_mem_replicate hworker]
    trivial
  readers := fun _ => Nat.zero_le _

theorem mem_handed (hworld : world.Serviceable numThreads)
    (hworkers : world.workers = front ++ worker :: back) (hsock : worker.sock? = some sock) :
    sock ∈ world.handed := by
  have hheld : 0 < world.held sock := by
    rw [held, List.countP_pos_iff]
    exact ⟨worker, by simp [hworkers], by simpa using hsock⟩
  have hplaces := hworld.places_le sock
  rw [places] at hplaces
  exact List.count_pos_iff.mp (by omega)

/-- One worker goes on. -/
theorem replace (hworld : world.Serviceable numThreads)
    (hworkers : world.workers = front ++ worker :: back) (worker' : Worker)
    (hworker' : worker'.WithinSize) :
    (front ++ worker' :: back).length = numThreads ∧
      ∀ candidate ∈ front ++ worker' :: back, candidate.WithinSize := by
  constructor
  · rw [← hworld.threads, hworkers]
    simp
  · intro candidate hcandidate
    rcases mem_workers.mp hcandidate with rfl | hrest
    · exact hworker'
    · exact hworld.workers candidate (by rw [hworkers]; exact mem_workers.mpr (.inr hrest))

theorem readers_set (hworld : world.Serviceable numThreads) {conn : Connection}
    (hconn : conn.reader.WithinSize) (other : Nat) :
    ((world.setConnection sock conn).connections other).reader.WithinSize := by
  by_cases hother : sock = other
  · subst hother
    rwa [setConnection_same]
  · rw [setConnection_other _ _ hother]
    exact hworld.readers other

theorem step (hworld : world.Serviceable numThreads) {event : PoolEvent}
    (hstep : PoolStep answers world event world') : world'.Serviceable numThreads := by
  have hplaces : ∀ sock, world'.places sock ≤ world'.handed.count sock := by
    intro sock
    obtain ⟨hafter, hhanded, _⟩ := hstep.places_eq sock
    have hbefore := hworld.places_le sock
    omega
  have hfresh : Connection.fresh.reader.WithinSize := Nat.zero_le _
  cases hstep with
  | newConnection other hnotOpen =>
      exact ⟨hworld.threads, hplaces, hworld.workers, hworld.readers⟩
  | pop other queue front back hqueue hworkers =>
      obtain ⟨hlength, hwithin⟩ :=
        hworld.replace hworkers (.receiveSize other []) (Nat.zero_le _)
      exact ⟨hlength, hplaces, hwithin, hworld.readers⟩
  | transfer other worker worker' conn front back hworkers htransfer =>
      obtain ⟨hwithin', hreader⟩ := htransfer.withinSize
      obtain ⟨hlength, hwithin⟩ := hworld.replace hworkers worker' hwithin'
      exact ⟨hlength, hplaces, hwithin,
        hworld.readers_set (by rw [hreader]; exact hworld.readers other)⟩
  | process other msgBuf response store front back hworkers hanswers =>
      obtain ⟨hlength, hwithin⟩ := hworld.replace hworkers
        (.sendSize other (sizeBytes response.length) response) trivial
      exact ⟨hlength, hplaces, hwithin, hworld.readers_set (hworld.readers other)⟩
  | noResponse other msgBuf store front back hworkers hanswers =>
      obtain ⟨hlength, hwithin⟩ := hworld.replace hworkers .idle trivial
      exact ⟨hlength, hplaces, hwithin, hworld.readers⟩
  | requeue other front back hworkers =>
      obtain ⟨hlength, hwithin⟩ := hworld.replace hworkers .idle trivial
      exact ⟨hlength, hplaces, hwithin, hworld.readers⟩
  | socketError other worker front back hworkers hsock hon =>
      obtain ⟨hlength, hwithin⟩ := hworld.replace hworkers .idle trivial
      exact ⟨hlength, hplaces, hwithin, hworld.readers_set hfresh⟩
  | tooLarge other got front back hworkers hgot hsize =>
      obtain ⟨hlength, hwithin⟩ := hworld.replace hworkers .idle trivial
      exact ⟨hlength, hplaces, hwithin, hworld.readers_set hfresh⟩
  | command other message =>
      exact ⟨hworld.threads, hplaces, hworld.workers, hworld.readers_set (hworld.readers other)⟩
  | client other conn hturn =>
      exact ⟨hworld.threads, hplaces, hworld.workers,
        hworld.readers_set (hturn.withinSize (hworld.readers other))⟩

theorem run {store : Store} (hrun : Reaches (PoolStep answers) (.start store numThreads) world) :
    world.Serviceable numThreads :=
  hrun.invariant (start store numThreads) fun hsource hstep => hsource.step hstep

/-- The places of all sockets together. -/
theorem length_le (hworld : world.Serviceable numThreads) :
    world.closed.length + world.queue.length +
      (world.workers.filterMap Worker.sock?).length ≤ world.handed.length := by
  have hcount : ∀ sock ∈ world.closed ++ world.queue ++ world.workers.filterMap Worker.sock?,
      (world.closed ++ world.queue ++ world.workers.filterMap Worker.sock?).count sock ≤
        world.handed.count sock := by
    intro sock _
    have hplaces := hworld.places_le sock
    rw [places, held] at hplaces
    rw [List.count_append, List.count_append, List.count_filterMap]
    simpa only [beq_eq_decide] using hplaces
  have hlength := (List.subperm_ext_iff.mpr hcount).length_le
  simpa only [List.length_append] using hlength

end PoolWorld.Serviceable

/-! Each step is paid with some of the work. -/

/-- Neither a connection nor a command is new. -/
def Settling {Store : Type} (_ : PoolWorld Store) : PoolEvent → Prop
  | .newConnection _ => False
  | .command _ _ => False
  | _ => True

/-- The workers go on, and the clients that they have to do with. -/
def Advances (handed : List Nat) : PoolEvent → Prop
  | .newConnection _ => False
  | .command _ _ => False
  | .client sock => sock ∈ handed
  | _ => True

theorem Advances.settling {Store : Type} {world : PoolWorld Store} {handed : List Nat}
    {event : PoolEvent} (hadvances : Advances handed event) : Settling world event := by
  cases event with
  | newConnection sock => exact hadvances
  | command sock message => exact hadvances
  | _ => trivial

def PoolWorld.work {Store : Type} (world : PoolWorld Store) : Nat :=
  2 * world.queue.length + (world.workers.map Worker.work).sum +
    ∑ sock ∈ world.handed.toFinset, (world.connections sock).work

section Paid

variable {Store : Type} {answers : Store → Bytes → Option Bytes → Store → Prop}
variable {numThreads sock : Nat} {world world' : PoolWorld Store}

theorem sum_work_replace (front back : List Worker) (worker worker' : Worker) :
    ((front ++ worker' :: back).map Worker.work).sum + worker.work =
      ((front ++ worker :: back).map Worker.work).sum + worker'.work := by
  simp only [List.map_append, List.map_cons, List.sum_append, List.sum_cons]
  omega

theorem sum_work_update (hhanded : sock ∈ world.handed) (conn : Connection) :
    ∑ other ∈ world.handed.toFinset, ((world.setConnection sock conn).connections other).work +
        (world.connections sock).work =
      ∑ other ∈ world.handed.toFinset, (world.connections other).work + conn.work :=
  sum_update Connection.work world.connections (List.mem_toFinset.mpr hhanded) conn

theorem PoolStep.work_lt (hworld : world.Serviceable numThreads) {event : PoolEvent}
    (hstep : PoolStep answers world event world') (hadvances : Advances world.handed event) :
    world'.work < world.work := by
  cases hstep with
  | newConnection other hnotOpen => exact hadvances.elim
  | pop other queue front back hqueue hworkers =>
      have hsum := sum_work_replace front back .idle (.receiveSize other [])
      simp only [Worker.work, List.length_nil] at hsum
      simp only [PoolWorld.work, hqueue, hworkers, List.length_cons]
      omega
  | transfer other worker worker' conn front back hworkers htransfer =>
      have hless := htransfer.work_lt
      have hsum := sum_work_replace front back worker worker'
      have hupdate := sum_work_update (hworld.mem_handed hworkers htransfer.sock?_eq.1) conn
      simp only [PoolWorld.work, hworkers]
      simp only [PoolWorld.setConnection] at hupdate ⊢
      omega
  | process other msgBuf response store front back hworkers hanswers =>
      have hsum := sum_work_replace front back (.process other msgBuf)
        (.sendSize other (sizeBytes response.length) response)
      have hupdate := sum_work_update (hworld.mem_handed hworkers rfl)
        { world.connections other with
          served := (world.connections other).served ++ [(msgBuf, response)] }
      have hsize := intSize_lt response.length
      simp only [Worker.work, sizeBytes_length, answerWork] at hsum
      simp only [PoolWorld.work, hworkers]
      simp only [PoolWorld.setConnection, Connection.work] at hupdate ⊢
      omega
  | noResponse other msgBuf store front back hworkers hanswers =>
      have hsum := sum_work_replace front back (.process other msgBuf) .idle
      simp only [Worker.work, answerWork] at hsum
      simp only [PoolWorld.work, hworkers]
      omega
  | requeue other front back hworkers =>
      have hsum := sum_work_replace front back (.sendData other []) .idle
      simp only [Worker.work, List.length_nil] at hsum
      simp only [PoolWorld.work, hworkers, List.length_append, List.length_singleton]
      omega
  | socketError other worker front back hworkers hsock hon =>
      have hsum := sum_work_replace front back worker .idle
      have hupdate := sum_work_update (hworld.mem_handed hworkers hsock) .fresh
      have hpos := Worker.work_pos hon
      rw [Connection.work_fresh] at hupdate
      rw [Worker.work_idle] at hsum
      simp only [PoolWorld.work, PoolWorld.close, hworkers]
      simp only [PoolWorld.setConnection] at hupdate ⊢
      omega
  | tooLarge other got front back hworkers hgot hsize =>
      have hsum := sum_work_replace front back (.receiveSize other got) .idle
      have hupdate := sum_work_update (hworld.mem_handed hworkers rfl) .fresh
      rw [Connection.work_fresh] at hupdate
      simp only [Worker.work] at hsum
      simp only [PoolWorld.work, PoolWorld.close, hworkers]
      simp only [PoolWorld.setConnection] at hupdate ⊢
      omega
  | command other message => exact hadvances.elim
  | client other conn hturn =>
      have hless := hturn.work_lt
      have hupdate := sum_work_update hadvances conn
      simp only [PoolWorld.work]
      simp only [PoolWorld.setConnection] at hupdate ⊢
      omega

/-- A client without a connection makes no work for the pool. -/
theorem PoolStep.work_le (hworld : world.Serviceable numThreads) {event : PoolEvent}
    (hstep : PoolStep answers world event world') (hsettling : Settling world event) :
    world'.work ≤ world.work := by
  by_cases hadvances : Advances world.handed event
  · exact (hstep.work_lt hworld hadvances).le
  · cases hstep with
    | newConnection other hnotOpen => exact hsettling.elim
    | command other message => exact hsettling.elim
    | client other conn hturn =>
        have hsame := sum_update_of_notMem Connection.work world.connections
          (fun hmem => hadvances (List.mem_toFinset.mp hmem)) conn
        simp only [PoolWorld.work, PoolWorld.setConnection, hsame, le_refl]
    | _ => exact absurd trivial hadvances

theorem PoolStep.handed_eq {event : PoolEvent} (hstep : PoolStep answers world event world')
    (hsettling : Settling world event) : world'.handed = world.handed := by
  cases hstep with
  | newConnection other hnotOpen => exact hsettling.elim
  | _ => rfl

theorem PoolWorld.Serviceable.work_le (hworld : world.Serviceable numThreads)
    (hrun : Reaches (Restricted (PoolStep answers) Settling) world world') :
    world'.Serviceable numThreads ∧ world'.work ≤ world.work := by
  induction hrun with
  | refl => exact ⟨hworld, le_rfl⟩
  | tail _ hstep ih =>
      obtain ⟨hmiddle, hle⟩ := ih
      exact ⟨hmiddle.step hstep.1, (hstep.1.work_le hmiddle hstep.2).trans hle⟩

/-- Whoever goes on has less left to do. -/
theorem PoolWorld.Serviceable.work_lt (hworld : world.Serviceable numThreads)
    (hrun : Reaches
      (Restricted (PoolStep answers) fun _ event => Advances world.handed event) world world')
    (hchange : world' ≠ world) : world'.work < world.work := by
  have hkept : world'.Serviceable numThreads ∧ world'.handed = world.handed ∧
      (world' = world ∨ world'.work < world.work) := by
    clear hchange
    induction hrun with
    | refl => exact ⟨hworld, rfl, .inl rfl⟩
    | tail _ hstep ih =>
        obtain ⟨hstep, hadvances⟩ := hstep
        obtain ⟨hmiddle, hhanded, hsofar⟩ := ih
        have hless := hstep.work_lt hmiddle (by rwa [hhanded])
        refine ⟨hmiddle.step hstep, (hstep.handed_eq hadvances.settling).trans hhanded, .inr ?_⟩
        rcases hsofar with rfl | hlower
        · exact hless
        · exact hless.trans hlower
  exact hkept.2.2.resolve_left hchange

end Paid

/-! When nothing more can happen. -/

/-- The client has sent everything and read everything. -/
structure Connection.AtRest (conn : Connection) : Prop where
  outgoing : conn.outgoing = []
  returned : conn.returned = []
  reader : conn.reader.AwaitsBytes

structure PoolWorld.AtRest {Store : Type} (world : PoolWorld Store) : Prop where
  connections : ∀ sock ∈ world.handed, (world.connections sock).AtRest
  workers : ∀ worker ∈ world.workers, worker = .idle ∧ world.queue = [] ∨
    worker.AwaitsBytes ∧
      ∀ sock, worker.sock? = some sock → (world.connections sock).arrived = []

theorem exists_clientTurn {conn : Connection} (hreader : conn.reader.WithinSize)
    (hbusy : ¬ conn.AtRest) : ∃ conn', ClientTurn conn conn' := by
  cases houtgoing : conn.outgoing with
  | cons byte outgoing =>
      exact ⟨_, .send conn [byte] outgoing (by simp) houtgoing⟩
  | nil =>
      cases hposition : conn.reader with
      | size got =>
          rw [hposition] at hreader
          rcases hreader.lt_or_eq with hlt | hgot
          · cases hreturned : conn.returned with
            | cons byte returned =>
                exact ⟨_, .receiveSize conn got [byte] returned (by simp) hposition hlt hreturned⟩
            | nil => exact absurd ⟨houtgoing, hreturned, by rwa [hposition]⟩ hbusy
          · exact ⟨_, .sizeReceived conn got hposition hgot⟩
      | data msgLen got =>
          rw [hposition] at hreader
          rcases hreader.lt_or_eq with hlt | hgot
          · cases hreturned : conn.returned with
            | cons byte returned =>
                exact ⟨_, .receiveData conn msgLen got [byte] returned (by simp) hposition hlt
                  hreturned⟩
            | nil => exact absurd ⟨houtgoing, hreturned, by rwa [hposition]⟩ hbusy
          · exact ⟨_, .dataReceived conn msgLen got hposition hgot⟩

/-! What has been answered then. -/

section Streams

variable {messages : List Bytes} {got : Bytes} {msgLen : Nat}

/-- Whole messages do not end in the middle of a size. -/
theorem eq_nil_of_frames_eq (hframes : frames messages = got) (hgot : got.length < 4) :
    got = [] := by
  cases messages with
  | nil => exact hframes.symm
  | cons message messages =>
      have hlength := congrArg List.length hframes
      simp only [frames_cons, frame_eq, List.length_append, sizeBytes_length] at hlength
      omega

/-- Whole messages do not end in the middle of a message. -/
theorem le_length_of_frames_eq (hmessages : ∀ message ∈ messages, message.length < 2 ^ 32)
    (hmsgLen : msgLen < 2 ^ 32) (hframes : frames messages = sizeBytes msgLen ++ got) :
    msgLen ≤ got.length := by
  cases messages with
  | nil =>
      have hlength := congrArg List.length hframes
      simp only [frames_nil, List.length_append, sizeBytes_length, List.length_nil] at hlength
      omega
  | cons message messages =>
      rw [frames_cons, frame_eq, List.append_assoc] at hframes
      obtain ⟨hsize, hbody⟩ := List.append_inj hframes (by simp)
      have hlength : message.length = msgLen := by
        rw [← bigEndian_sizeBytes (hmessages message (by simp)), hsize,
          bigEndian_sizeBytes hmsgLen]
      rw [← hbody, List.length_append, hlength]
      omega

variable {sock : Nat} {conn : Connection} {worker : Worker} {consumed unsent : Bytes}

/-- A worker that waits while nothing is under way is at the beginning of a command. -/
theorem InOrder.eq_receiveSize (horder : InOrder conn worker.consumed unsent)
    (hwell : worker.WellFormed) (hsock : worker.sock? = some sock) (hawaits : worker.AwaitsBytes)
    (harrived : conn.arrived = []) (houtgoing : conn.outgoing = []) :
    worker = .receiveSize sock [] := by
  obtain ⟨later, hcommands, hframes⟩ := horder.exists_later_commands
  rw [harrived, houtgoing, List.append_nil, List.append_nil] at hframes
  cases worker with
  | receiveSize other got =>
      cases hsock
      have hgot : got = [] := eq_nil_of_frames_eq hframes hawaits
      rw [hgot]
  | receiveData other msgLen got =>
      have hlater : ∀ message ∈ later, message.length < 2 ^ 32 := fun message hmessage =>
        horder.commands_lt message (by simp [hcommands, hmessage])
      have hmsgLen : msgLen ≤ maxSize := hwell
      exact absurd hawaits
        (le_length_of_frames_eq hlater (hmsgLen.trans_lt (by decide)) hframes).not_gt
  | _ => exact hawaits.elim

/-- So is a client. -/
theorem InOrder.reader_eq_size (horder : InOrder conn consumed [])
    (hawaits : conn.reader.AwaitsBytes) (hreturned : conn.returned = []) :
    conn.reader = .size [] := by
  obtain ⟨later, hresponses, hframes⟩ := horder.exists_later_responses
  have hwell := horder.reader
  rw [hreturned, List.append_nil, List.append_nil] at hframes
  cases hposition : conn.reader with
  | size got =>
      rw [hposition] at hframes hawaits
      have hgot : got = [] := eq_nil_of_frames_eq hframes hawaits
      rw [hgot]
  | data msgLen got =>
      rw [hposition] at hframes hawaits hwell
      have hlater : ∀ message ∈ later, message.length < 2 ^ 32 := fun message hmessage =>
        horder.served_responses_lt_size message (by simp [hresponses, hmessage])
      have hmsgLen : msgLen < 2 ^ 31 := hwell
      have hle := le_length_of_frames_eq hlater (hmsgLen.trans (by decide)) hframes
      rw [← intSize_of_lt hmsgLen] at hle
      exact absurd hawaits hle.not_gt

theorem ClientTurn.commands_eq {conn' : Connection} (hturn : ClientTurn conn conn') :
    conn'.commands = conn.commands := by
  cases hturn <;> rfl

theorem Transfer.commands_eq {conn' : Connection} {worker' : Worker}
    (htransfer : Transfer sock conn worker conn' worker') : conn'.commands = conn.commands := by
  cases htransfer <;> rfl

end Streams

section Answer

variable {Store : Type} {answers : Store → Bytes → Option Bytes → Store → Prop}
variable {numThreads sock : Nat} {world world' : PoolWorld Store}

theorem commands_setConnection {other : Nat} {conn : Connection}
    (hconn : conn.commands = (world.connections other).commands) :
    ((world.setConnection other conn).connections sock).commands =
      (world.connections sock).commands := by
  by_cases hother : other = sock
  · subst hother
    rw [setConnection_same, hconn]
  · rw [setConnection_other _ _ hother]

/-- What a settling pool keeps of a connection that nothing disturbs. -/
structure Settled (answers : Store → Bytes → Option Bytes → Store → Prop) (sock : Nat)
    (world later : PoolWorld Store) : Prop where
  undistorted : Undistorted answers later sock
  commands : (later.connections sock).commands = (world.connections sock).commands
  handed : later.handed = world.handed
  closed : world.closed.length ≤ later.closed.length

theorem Undistorted.settled (hworld : Undistorted answers world sock) {event : PoolEvent}
    (hstep : PoolStep answers world event world') (hcalm : Undisturbed sock world event)
    (hsettling : Settling world event) : Settled answers sock world world' := by
  have hundistorted := hworld.step hstep hcalm
  cases hstep with
  | newConnection other hnotOpen => exact hsettling.elim
  | transfer other worker worker' conn front back hworkers htransfer =>
      exact ⟨hundistorted, commands_setConnection htransfer.commands_eq, rfl, le_rfl⟩
  | process other msgBuf response store front back hworkers hanswers =>
      exact ⟨hundistorted, commands_setConnection rfl, rfl, le_rfl⟩
  | socketError other worker front back hworkers hsock hon =>
      have hother : other ≠ sock := hcalm
      refine ⟨hundistorted, ?_, rfl, Nat.le_succ _⟩
      exact congrArg Connection.commands (setConnection_other world .fresh hother)
  | tooLarge other got front back hworkers hgot hsize =>
      have hattended := hworld.attended
      rw [hworkers] at hattended
      have hother : other ≠ sock := by
        rintro rfl
        exact hattended.fits hgot hsize
      refine ⟨hundistorted, ?_, rfl, Nat.le_succ _⟩
      exact congrArg Connection.commands (setConnection_other world .fresh hother)
  | command other message => exact hsettling.elim
  | client other conn hturn =>
      exact ⟨hundistorted, commands_setConnection hturn.commands_eq, rfl, le_rfl⟩
  | _ => exact ⟨hundistorted, rfl, rfl, le_rfl⟩

theorem Undistorted.run {store : Store}
    (hrun : Reaches (Restricted (PoolStep answers) (Undisturbed sock))
      (.start store numThreads) world) : Undistorted answers world sock := by
  induction hrun with
  | refl => exact .start store numThreads
  | tail _ hrestricted ih => exact ih.step hrestricted.1 hrestricted.2

theorem Settled.run {later : PoolWorld Store} (hworld : Undistorted answers world sock)
    (hrun : Reaches
      (Restricted (PoolStep answers) fun world event =>
        Settling world event ∧ Undisturbed sock world event) world later) :
    Settled answers sock world later := by
  induction hrun with
  | refl => exact ⟨hworld, rfl, rfl, le_rfl⟩
  | tail _ hstep ih =>
      obtain ⟨hstep, hsettling, hcalm⟩ := hstep
      have hnext := ih.undistorted.settled hstep hcalm hsettling
      exact ⟨hnext.undistorted, hnext.commands.trans ih.commands, hnext.handed.trans ih.handed,
        ih.closed.trans hnext.closed⟩

/-- With a thread for each open connection nobody waits in the queue of a pool at rest. -/
theorem PoolWorld.Serviceable.queue_eq_nil (hworld : world.Serviceable numThreads)
    (hrest : world.AtRest)
    (henough : world.handed.length ≤ world.closed.length + numThreads) : world.queue = [] := by
  by_contra hqueue
  have hbusy : ∀ worker ∈ world.workers, worker.sock?.isSome := by
    intro worker hworker
    rcases hrest.workers worker hworker with ⟨_, hempty⟩ | ⟨hawaits, _⟩
    · exact absurd hempty hqueue
    · cases worker with
      | receiveSize other got => rfl
      | receiveData other msgLen got => rfl
      | _ => exact hawaits.elim
  have hthreads : (world.workers.filterMap Worker.sock?).length = numThreads := by
    rw [List.length_filterMap_eq_countP, List.countP_eq_length.mpr hbusy, hworld.threads]
  have hlength := hworld.length_le
  have hpos := List.length_pos_iff.mpr hqueue
  omega

/-- In a pool at rest with threads enough, every command of an undisturbed connection has
its response, and the client has read it. -/
theorem Undistorted.answered_at_rest (hworld : Undistorted answers world sock)
    (hserviceable : world.Serviceable numThreads) (hrest : world.AtRest)
    (hhanded : sock ∈ world.handed)
    (henough : world.handed.length ≤ world.closed.length + numThreads) :
    List.Forall₂ (fun command response => Answered answers (command, response))
      (world.connections sock).commands (world.connections sock).responses := by
  have hqueue := hserviceable.queue_eq_nil hrest henough
  obtain ⟨houtgoing, hreturned, hreader⟩ := hrest.connections sock hhanded
  obtain ⟨worker, hworker, hsock⟩ : ∃ worker ∈ world.workers, worker.sock? = some sock := by
    by_contra hnone
    push Not at hnone
    have hheld := held_eq_zero_iff.mpr hnone
    have hplaces := hworld.kept.handed
    have hpos := List.count_pos_iff.mpr hhanded
    rw [PoolWorld.places, hworld.still_open, hqueue, hheld, List.count_nil] at hplaces
    omega
  obtain ⟨hawaits, harrived⟩ : worker.AwaitsBytes ∧ (world.connections sock).arrived = [] := by
    rcases hrest.workers worker hworker with ⟨rfl, _⟩ | ⟨hawaits, harrived⟩
    · cases hsock
    · exact ⟨hawaits, harrived sock hsock⟩
  have hquiet : ∀ other ∈ world.workers, other.sock? = some sock →
      other = .receiveSize sock [] := by
    intro other hother hheld
    obtain ⟨hwell, horder⟩ := hworld.attended.working other hother hheld
    rcases hrest.workers other hother with ⟨rfl, _⟩ | ⟨hwaits, _⟩
    · cases hheld
    · exact horder.eq_receiveSize hwell hheld hwaits harrived houtgoing
  have horder := hworld.attended.inOrder_of_quiet hquiet
  have hconversation := hworld.conversation
  have hserved := hconversation.all_served hquiet harrived houtgoing
  have hread := hconversation.all_read hquiet hreturned (horder.reader_eq_size hreader hreturned)
  rw [← hserved, hread, List.forall₂_map_left_iff, List.forall₂_map_right_iff, List.forall₂_same]
  exact hconversation.answered

end Answer

end VotingSystem.Server
