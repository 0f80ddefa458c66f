import VotingSystem.Server.Pool

namespace VotingSystem.Server

open VotingSystem.Data VotingSystem.Storage

/-! A connection whose client frames its commands and whose sockets do not fail, among
any others. -/

/-- The commands of the connection fit, its sockets do not fail and its responses are
produced, in the range of an `int`. Other connections are not restricted. -/
def Undisturbed {Store : Type} (sock : Nat) (_ : PoolWorld Store) : PoolEvent → Prop
  | .socketError other => other ≠ sock
  | .process other response => other = sock →
      ∃ bytes, response = some bytes ∧ bytes.length < 2 ^ 31
  | .command other message => other = sock → message.length ≤ maxSize
  | _ => True

theorem mem_workers {front back : List Worker} {worker candidate : Worker} :
    candidate ∈ front ++ worker :: back ↔
      candidate = worker ∨ candidate ∈ front ++ back := by
  rw [List.perm_middle.mem_iff, List.mem_cons]

/-- The stream of a connection as the worker that holds it, if any, has left it. -/
structure Attended (workers : List Worker) (sock : Nat) (conn : Connection) : Prop where
  waiting : (∀ worker ∈ workers, worker.sock? ≠ some sock) → InOrder conn [] []
  working : ∀ worker ∈ workers, worker.sock? = some sock →
    worker.WellFormed ∧ InOrder conn worker.consumed worker.unsent

namespace Attended

variable {sock : Nat} {conn conn' : Connection} {front back : List Worker}
variable {worker worker' : Worker}

theorem holder (hattended : Attended (front ++ worker :: back) sock conn)
    (hsock : worker.sock? = some sock) :
    worker.WellFormed ∧ InOrder conn worker.consumed worker.unsent :=
  hattended.working worker (by simp) hsock

/-- No command of the connection is too large. -/
theorem fits {got : Bytes} (hattended : Attended (front ++ .receiveSize sock got :: back) sock conn)
    (hgot : got.length = 4) : ¬maxSize < Bytes.bigEndian got := by
  obtain ⟨_, horder⟩ := hattended.holder rfl
  have hlength : Bytes.bigEndian got ≤ maxSize := horder.next_command_length hgot
  omega

/-- A step of a worker that holds another socket, or none. -/
theorem other (hattended : Attended (front ++ worker :: back) sock conn)
    (hworker : worker.sock? ≠ some sock) (hworker' : worker'.sock? ≠ some sock) :
    Attended (front ++ worker' :: back) sock conn where
  waiting := by
    intro hnone
    apply hattended.waiting
    intro candidate hcandidate
    rcases mem_workers.mp hcandidate with rfl | hrest
    · exact hworker
    · exact hnone candidate (mem_workers.mpr (.inr hrest))
  working := by
    intro candidate hcandidate hsock
    rcases mem_workers.mp hcandidate with rfl | hrest
    · exact absurd hsock hworker'
    · exact hattended.working candidate (mem_workers.mpr (.inr hrest)) hsock

/-- The one worker that holds the socket goes on with it. -/
theorem goOn (halone : ∀ candidate ∈ front ++ back, candidate.sock? ≠ some sock)
    (hsock : worker.sock? = some sock) (hworker : worker.WellFormed)
    (horder : InOrder conn worker.consumed worker.unsent) :
    Attended (front ++ worker :: back) sock conn where
  waiting := fun hnone => absurd hsock (hnone worker (by simp))
  working := by
    intro candidate hcandidate hheld
    rcases mem_workers.mp hcandidate with rfl | hrest
    · exact ⟨hworker, horder⟩
    · exact absurd hheld (halone candidate hrest)

/-- The one worker that holds the socket lets it go. -/
theorem letGo (halone : ∀ candidate ∈ front ++ back, candidate.sock? ≠ some sock)
    (hworker : worker.sock? ≠ some sock) (horder : InOrder conn [] []) :
    Attended (front ++ worker :: back) sock conn where
  waiting := fun _ => horder
  working := by
    intro candidate hcandidate hheld
    rcases mem_workers.mp hcandidate with rfl | hrest
    · exact absurd hheld hworker
    · exact absurd hheld (halone candidate hrest)

/-- A step of the client. -/
theorem client {workers : List Worker} (hattended : Attended workers sock conn)
    (hturn : ∀ consumed unsent, InOrder conn consumed unsent → InOrder conn' consumed unsent) :
    Attended workers sock conn' where
  waiting := fun hnone => hturn _ _ (hattended.waiting hnone)
  working := fun worker hworker hsock =>
    (hattended.working worker hworker hsock).imp_right (hturn _ _)

end Attended

section Run

variable {Store : Type} {answers : Store → Bytes → Option Bytes → Store → Prop}
variable {world world' : PoolWorld Store} {sock : Nat}

theorem held_eq_zero_iff :
    world.held sock = 0 ↔ ∀ worker ∈ world.workers, worker.sock? ≠ some sock := by
  simp [PoolWorld.held, List.countP_eq_zero]

/-- No two workers hold one socket. -/
theorem Placed.alone (hplaced : Placed world sock) {front back : List Worker}
    {worker : Worker} (hworkers : world.workers = front ++ worker :: back)
    (hsock : worker.sock? = some sock) :
    ∀ candidate ∈ front ++ back, candidate.sock? ≠ some sock := by
  have honce := hplaced.once
  rw [PoolWorld.held, hworkers, List.countP_append, List.countP_cons_of_pos (by simpa)]
    at honce
  have hnone : (front ++ back).countP (fun worker => worker.sock? = some sock) = 0 := by
    rw [List.countP_append]
    omega
  simpa only [List.countP_eq_zero, decide_eq_true_eq] using hnone

/-- A socket in the queue is held by no worker. -/
theorem Placed.unheld (hplaced : Placed world sock) {queue : List Nat}
    (hqueue : world.queue = sock :: queue) :
    ∀ worker ∈ world.workers, worker.sock? ≠ some sock := by
  have honce := hplaced.once
  rw [hqueue, List.count_cons_self] at honce
  exact held_eq_zero_iff.mp (by omega)

theorem setConnection_same (world : PoolWorld Store) (conn : Connection) :
    (world.setConnection sock conn).connections sock = conn := by
  simp [PoolWorld.setConnection]

theorem setConnection_other (world : PoolWorld Store) {other : Nat} (conn : Connection)
    (hother : other ≠ sock) :
    (world.setConnection other conn).connections sock = world.connections sock := by
  simp [PoolWorld.setConnection, Function.update_of_ne hother.symm]

/-- A worker goes on with the socket that it holds. -/
theorem Attended.work (hattended : Attended world.workers sock (world.connections sock))
    (hplaced : Placed world sock) {other : Nat} {worker worker' : Worker}
    {front back : List Worker} (hworkers : world.workers = front ++ worker :: back)
    (hbefore : worker.sock? = some other) (hafter : worker'.sock? = some other)
    {conn : Connection}
    (hwork : other = sock → worker.WellFormed →
      InOrder (world.connections other) worker.consumed worker.unsent →
        worker'.WellFormed ∧ InOrder conn worker'.consumed worker'.unsent) :
    Attended (front ++ worker' :: back) sock
      ((world.setConnection other conn).connections sock) := by
  rw [hworkers] at hattended
  by_cases hother : other = sock
  · subst hother
    obtain ⟨hwell, horder⟩ := hattended.holder hbefore
    obtain ⟨hwell', horder'⟩ := hwork rfl hwell horder
    rw [setConnection_same]
    exact .goOn (hplaced.alone hworkers hbefore) hafter hwell' horder'
  · rw [setConnection_other world conn hother]
    exact hattended.other (by simpa [hbefore] using hother) (by simpa [hafter] using hother)

/-- The client of some connection does something. -/
theorem Attended.setConnection
    (hattended : Attended world.workers sock (world.connections sock)) {other : Nat}
    {conn : Connection}
    (hturn : other = sock → ∀ consumed unsent,
      InOrder (world.connections other) consumed unsent → InOrder conn consumed unsent) :
    Attended world.workers sock ((world.setConnection other conn).connections sock) := by
  by_cases hother : other = sock
  · subst hother
    rw [setConnection_same]
    exact hattended.client (hturn rfl)
  · rw [setConnection_other world conn hother]
    exact hattended

/-- A worker closes another socket. -/
theorem Attended.close (hattended : Attended world.workers sock (world.connections sock))
    {other : Nat} (hother : other ≠ sock) {worker : Worker} {front back : List Worker}
    (hworkers : world.workers = front ++ worker :: back)
    (hsock : worker.sock? = some other) :
    Attended (front ++ .idle :: back) sock ((world.close other).connections sock) := by
  rw [hworkers] at hattended
  simp only [PoolWorld.close]
  rw [setConnection_other world _ hother]
  exact hattended.other (by simpa [hsock] using hother) (by simp [Worker.sock?])

theorem Attended.step
    (hattended : Attended world.workers sock (world.connections sock))
    (hplaced : Placed world sock) {event : PoolEvent}
    (hstep : PoolStep answers world event world') (hcalm : Undisturbed sock world event) :
    Attended world'.workers sock (world'.connections sock) := by
  cases hstep with
  | newConnection other hnotOpen => exact hattended
  | pop other queue front back hqueue hworkers =>
      rw [hworkers] at hattended
      by_cases hother : other = sock
      · subst hother
        have hunheld := hplaced.unheld hqueue
        rw [hworkers] at hunheld
        exact .goOn (fun candidate hrest => hunheld candidate (mem_workers.mpr (.inr hrest)))
          rfl trivial (hattended.waiting hunheld)
      · exact hattended.other (by simp [Worker.sock?]) (by simpa [Worker.sock?] using hother)
  | transfer other worker worker' conn front back hworkers htransfer =>
      obtain ⟨hbefore, hafter⟩ := htransfer.sock?_eq
      exact hattended.work hplaced hworkers hbefore hafter
        fun _ hwell horder => InOrder.transfer htransfer hwell horder
  | process other msgBuf response store front back hworkers hanswers =>
      refine hattended.work hplaced hworkers rfl rfl fun hother hwell horder => ?_
      obtain ⟨bytes, hsome, hlength⟩ := hcalm hother
      rw [← Option.some.inj hsome] at hlength
      exact ⟨hlength, horder.process hwell hlength⟩
  | noResponse other msgBuf store front back hworkers hanswers =>
      have hother : other ≠ sock := by
        intro hsame
        obtain ⟨bytes, hsome, _⟩ := hcalm hsame
        contradiction
      rw [hworkers] at hattended
      exact hattended.other (by simpa [Worker.sock?] using hother) (by simp [Worker.sock?])
  | requeue other front back hworkers =>
      rw [hworkers] at hattended
      by_cases hother : other = sock
      · subst hother
        obtain ⟨_, horder⟩ := hattended.holder rfl
        exact .letGo (hplaced.alone hworkers rfl) (by simp [Worker.sock?]) horder
      · exact hattended.other (by simpa [Worker.sock?] using hother) (by simp [Worker.sock?])
  | socketError other worker front back hworkers hsock hon =>
      exact hattended.close hcalm hworkers hsock
  | tooLarge other got front back hworkers hgot hsize =>
      have hother : other ≠ sock := by
        rintro rfl
        rw [hworkers] at hattended
        exact hattended.fits hgot hsize
      exact hattended.close hother hworkers rfl
  | command other message =>
      exact hattended.setConnection fun hother _ _ horder => horder.command (hcalm hother)
  | client other conn hturn =>
      exact hattended.setConnection fun _ _ _ horder => horder.clientTurn hturn

theorem Attended.closed_eq
    (hattended : Attended world.workers sock (world.connections sock)) {event : PoolEvent}
    (hstep : PoolStep answers world event world') (hcalm : Undisturbed sock world event) :
    world'.closed.count sock = world.closed.count sock := by
  cases hstep with
  | socketError other worker front back hworkers hsock hon =>
      exact List.count_cons_of_ne hcalm
  | tooLarge other got front back hworkers hgot hsize =>
      rw [hworkers] at hattended
      have hother : other ≠ sock := by
        rintro rfl
        exact hattended.fits hgot hsize
      exact List.count_cons_of_ne hother
  | _ => rfl

/-- The responses that a connection keeps are those to its commands. -/
def Answered (answers : Store → Bytes → Option Bytes → Store → Prop)
    (pair : Bytes × Bytes) : Prop :=
  ∃ store store', answers store pair.1 (some pair.2) store'

theorem ClientTurn.served_eq {conn conn' : Connection} (hturn : ClientTurn conn conn') :
    conn'.served = conn.served := by
  cases hturn <;> rfl

theorem Transfer.served_eq {conn conn' : Connection} {worker worker' : Worker}
    (htransfer : Transfer sock conn worker conn' worker') : conn'.served = conn.served := by
  cases htransfer <;> rfl

theorem PoolStep.answered {event : PoolEvent} (hstep : PoolStep answers world event world')
    (hanswered : ∀ sock, ∀ pair ∈ (world.connections sock).served, Answered answers pair)
    (sock : Nat) :
    ∀ pair ∈ (world'.connections sock).served, Answered answers pair := by
  have hset : ∀ other conn, (∀ pair ∈ conn.served, Answered answers pair) →
      ∀ pair ∈ ((world.setConnection other conn).connections sock).served,
        Answered answers pair := by
    intro other conn hconn
    by_cases hother : other = sock
    · subst hother
      rwa [setConnection_same]
    · rw [setConnection_other world conn hother]
      exact hanswered sock
  cases hstep with
  | newConnection other hnotOpen => exact hanswered sock
  | pop other queue front back hqueue hworkers => exact hanswered sock
  | transfer other worker worker' conn front back hworkers htransfer =>
      apply hset other conn
      rw [htransfer.served_eq]
      exact hanswered other
  | process other msgBuf response store front back hworkers hstore =>
      have hpair : Answered answers (msgBuf, response) := ⟨_, _, hstore⟩
      exact hset other _ (List.forall_mem_append.mpr
        ⟨hanswered other, List.forall_mem_singleton.mpr hpair⟩)
  | noResponse other msgBuf store front back hworkers hstore => exact hanswered sock
  | requeue other front back hworkers => exact hanswered sock
  | socketError other worker front back hworkers hsock hon =>
      exact hset other .fresh (by simp [Connection.fresh])
  | tooLarge other got front back hworkers hgot hsize =>
      exact hset other .fresh (by simp [Connection.fresh])
  | command other message => exact hset other _ (hanswered other)
  | client other conn hturn =>
      apply hset other conn
      rw [hturn.served_eq]
      exact hanswered other

end Run

/-- What a connection has gone through: its socket is still open, the commands passed
to `processCommand` are the first of those framed, and the responses read are, one by
one, those to the commands. With nothing under way all commands are served, and with
nothing left to read all responses are read. -/
structure Conversation {Store : Type}
    (answers : Store → Bytes → Option Bytes → Store → Prop) (world : PoolWorld Store)
    (sock : Nat) : Prop where
  still_open : world.closed.count sock = 0
  answered : ∀ pair ∈ (world.connections sock).served, Answered answers pair
  served : (world.connections sock).served.map Prod.fst <+: (world.connections sock).commands
  read : (world.connections sock).responses <+: (world.connections sock).served.map Prod.snd
  matched : ∀ (k : Nat) (response : Bytes),
    (world.connections sock).responses[k]? = some response →
      ∃ command, (world.connections sock).commands[k]? = some command ∧
        Answered answers (command, response)
  all_served : (∀ worker ∈ world.workers, worker.sock? = some sock →
      worker = .receiveSize sock []) →
    (world.connections sock).arrived = [] → (world.connections sock).outgoing = [] →
      (world.connections sock).served.map Prod.fst = (world.connections sock).commands
  all_read : (∀ worker ∈ world.workers, worker.sock? = some sock →
      worker = .receiveSize sock []) →
    (world.connections sock).returned = [] → (world.connections sock).reader = .size [] →
      (world.connections sock).responses = (world.connections sock).served.map Prod.snd

section Matched

variable {Store : Type} {answers : Store → Bytes → Option Bytes → Store → Prop}

/-- The same place in two lists, of which the second extends the halves of a list of
pairs. -/
theorem exists_matched {commands responses : List Bytes} {served : List (Bytes × Bytes)}
    (hserved : served.map Prod.fst <+: commands) (hread : responses <+: served.map Prod.snd)
    (hanswered : ∀ pair ∈ served, Answered answers pair) {k : Nat} {response : Bytes}
    (hresponse : responses[k]? = some response) :
    ∃ command, commands[k]? = some command ∧ Answered answers (command, response) := by
  obtain ⟨later, hlater⟩ := hread
  obtain ⟨more, rfl⟩ := hserved
  have hk : k < responses.length := (List.getElem?_eq_some_iff.mp hresponse).1
  have hpair : (served.map Prod.snd)[k]? = some response := by
    rw [← hlater, List.getElem?_append_left hk, hresponse]
  rw [List.getElem?_map, Option.map_eq_some_iff] at hpair
  obtain ⟨⟨command, _⟩, hget, rfl⟩ := hpair
  have hlt : k < (served.map Prod.fst).length := by
    rw [List.length_map]
    exact (List.getElem?_eq_some_iff.mp hget).1
  refine ⟨command, ?_, hanswered _ (List.mem_of_getElem? hget)⟩
  rw [List.getElem?_append_left hlt, List.getElem?_map, hget]
  rfl

theorem frames_eq_nil {messages : List Bytes} (hframes : frames messages = []) :
    messages = [] := by
  cases messages with
  | nil => rfl
  | cons message messages =>
      have hlength := congrArg List.length hframes
      simp [frame_eq] at hlength

/-- A worker that has taken nothing of the next command leaves the stream as an
unheld socket does. -/
theorem Attended.inOrder_of_quiet {workers : List Worker} {sock : Nat} {conn : Connection}
    (hattended : Attended workers sock conn)
    (hquiet : ∀ worker ∈ workers, worker.sock? = some sock → worker = .receiveSize sock []) :
    InOrder conn [] [] := by
  by_cases hheld : ∃ worker ∈ workers, worker.sock? = some sock
  · obtain ⟨worker, hworker, hsock⟩ := hheld
    obtain ⟨_, horder⟩ := hattended.working worker hworker hsock
    rw [hquiet worker hworker hsock] at horder
    exact horder
  · push Not at hheld
    exact hattended.waiting hheld

/-- Both directions of the stream, at whatever point of its message the worker is. -/
theorem Attended.exists_inOrder {workers : List Worker} {sock : Nat} {conn : Connection}
    (hattended : Attended workers sock conn) :
    ∃ consumed unsent, InOrder conn consumed unsent := by
  by_cases hheld : ∃ worker ∈ workers, worker.sock? = some sock
  · obtain ⟨worker, hworker, hsock⟩ := hheld
    exact ⟨_, _, (hattended.working worker hworker hsock).2⟩
  · push Not at hheld
    exact ⟨_, _, hattended.waiting hheld⟩

end Matched

/-- What a run keeps of a connection that nothing disturbs. -/
structure Undistorted {Store : Type} (answers : Store → Bytes → Option Bytes → Store → Prop)
    (world : PoolWorld Store) (sock : Nat) : Prop where
  kept : Kept world sock
  still_open : world.closed.count sock = 0
  attended : Attended world.workers sock (world.connections sock)
  answered : ∀ other, ∀ pair ∈ (world.connections other).served, Answered answers pair

namespace Undistorted

variable {Store : Type} {answers : Store → Bytes → Option Bytes → Store → Prop}
variable {world world' : PoolWorld Store} {sock : Nat}

theorem start (store : Store) (numThreads : Nat) :
    Undistorted answers (.start store numThreads) sock where
  kept := .start store numThreads sock
  still_open := rfl
  attended :=
    { waiting := fun _ => .fresh
      working := by
        intro worker hworker hsock
        rw [List.eq_of_mem_replicate hworker] at hsock
        contradiction }
  answered := by simp [PoolWorld.start, Connection.fresh]

theorem step (hworld : Undistorted answers world sock) {event : PoolEvent}
    (hstep : PoolStep answers world event world') (hcalm : Undisturbed sock world event) :
    Undistorted answers world' sock where
  kept := by
    refine hworld.kept.step hstep ?_
    rintro rfl
    obtain ⟨bytes, hsome, _⟩ := hcalm rfl
    contradiction
  still_open := (hworld.attended.closed_eq hstep hcalm).trans hworld.still_open
  attended := hworld.attended.step hworld.kept.placed hstep hcalm
  answered := hstep.answered hworld.answered

theorem conversation (hworld : Undistorted answers world sock) :
    Conversation answers world sock := by
  obtain ⟨consumed, unsent, horder⟩ := hworld.attended.exists_inOrder
  obtain ⟨laterCommands, hcommands, _⟩ := horder.exists_later_commands
  obtain ⟨laterResponses, hresponses, _⟩ := horder.exists_later_responses
  have hserved : (world.connections sock).served.map Prod.fst <+:
      (world.connections sock).commands := ⟨laterCommands, hcommands.symm⟩
  have hread : (world.connections sock).responses <+:
      (world.connections sock).served.map Prod.snd := ⟨laterResponses, hresponses.symm⟩
  refine ⟨hworld.still_open, hworld.answered sock, hserved, hread,
    fun k response => exists_matched hserved hread (hworld.answered sock), ?_, ?_⟩
  · intro hquiet harrived houtgoing
    obtain ⟨later, heq, hlater⟩ :=
      (hworld.attended.inOrder_of_quiet hquiet).exists_later_commands
    rw [harrived, houtgoing] at hlater
    rw [heq, frames_eq_nil hlater, List.append_nil]
  · intro hquiet hreturned hreader
    obtain ⟨later, heq, hlater⟩ :=
      (hworld.attended.inOrder_of_quiet hquiet).exists_later_responses
    rw [hreturned, hreader] at hlater
    rw [heq, frames_eq_nil hlater, List.append_nil]

end Undistorted

/-- Whatever else the pool does, a connection that nothing disturbs has its commands
processed in order and its responses read in the same order. -/
theorem responses_match_commands {Store : Type}
    {answers : Store → Bytes → Option Bytes → Store → Prop} {store : Store}
    {numThreads sock : Nat} {world : PoolWorld Store}
    (hrun : Reaches (Restricted (PoolStep answers) (Undisturbed sock))
      (.start store numThreads) world) :
    Conversation answers world sock := by
  have hworld : Undistorted answers world sock := by
    induction hrun with
    | refl => exact .start store numThreads
    | tail _ hrestricted ih => exact ih.step hrestricted.1 hrestricted.2
  exact hworld.conversation

theorem undisturbed_receiving {Store : Type} {message : Bytes}
    (hlength : message.length ≤ maxSize) (world : PoolWorld Store) :
    ∀ event ∈ receivingEvents message, Undisturbed 7 world event := by
  simpa [receivingEvents, Undisturbed] using hlength

theorem undisturbed_answering {Store : Type} {response : Bytes}
    (hresponse : response.length < 2 ^ 31) (world : PoolWorld Store) :
    ∀ event ∈ answeringEvents response, Undisturbed 7 world event := by
  simpa [answeringEvents, Undisturbed] using hresponse

/-- The reference vote and its receipt. -/
theorem responses_match_commands_vote :
    ∃ world : PoolWorld Database,
      (world.connections 7).responses = [voteResponse] ∧
        Conversation (processes SmallElection.referenceLib SmallElection.reference.config)
          world 7 := by
  obtain ⟨hpos, hsmall⟩ := voteResponse_length
  have hanswers : processes SmallElection.referenceLib SmallElection.reference.config _ _ _ _ :=
    ⟨5, processCommand_voteResponse⟩
  have hsize := referenceVote_length.2
  have hrun := reaches_exchange hsize (List.ne_nil_of_length_pos hpos) hsmall hanswers
    (undisturbed_receiving hsize) (undisturbed_answering hsmall)
  exact ⟨_, by simp, responses_match_commands hrun⟩

end VotingSystem.Server
