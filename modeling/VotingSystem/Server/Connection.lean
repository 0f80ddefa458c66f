import VotingSystem.Server.ThreadPool

namespace VotingSystem.Server

open VotingSystem.Data

/-! One connection: the bytes under way in both directions, its client, and what a
worker of the pool does with it between two visits of the queue. -/

/-- The size that precedes a message. -/
def sizeBytes (size : Nat) : Bytes := (Bytes.ofNatLE 4 size).reverse

/-- A size as the `int` that `socketSend` and `socketRecv` count up to. -/
def intSize (size : Nat) : Nat :=
  if size % 2 ^ 32 < 2 ^ 31 then size % 2 ^ 32 else 0

theorem intSize_of_lt {size : Nat} (hsize : size < 2 ^ 31) : intSize size = size := by
  have hsmall : size % 2 ^ 32 = size := Nat.mod_eq_of_lt (by omega)
  rw [intSize, hsmall, if_pos hsize]

theorem intSize_le (size : Nat) : intSize size ≤ size := by
  unfold intSize
  split
  · exact Nat.mod_le size _
  · exact Nat.zero_le size

theorem frame_eq (message : Bytes) : frame message = sizeBytes message.length ++ message := rfl

@[simp] theorem sizeBytes_length (size : Nat) : (sizeBytes size).length = 4 := by
  simp [sizeBytes]

theorem bigEndian_sizeBytes {size : Nat} (hsize : size < 2 ^ 32) :
    Bytes.bigEndian (sizeBytes size) = size := by
  rw [sizeBytes, Bytes.bigEndian_reverse, Bytes.littleEndian_ofNatLE]
  exact Nat.mod_eq_of_lt hsize

theorem sizeBytes_bigEndian {header : Bytes} (hheader : header.length = 4) :
    sizeBytes (Bytes.bigEndian header) = header := by
  have hround := Bytes.ofNatLE_littleEndian header.reverse
  rw [List.length_reverse, hheader] at hround
  rw [sizeBytes, Bytes.bigEndian, hround, List.reverse_reverse]

/-! Sequences of messages on a stream. -/

def frames (messages : List Bytes) : Bytes := messages.flatMap frame

@[simp] theorem frames_nil : frames [] = [] := rfl

@[simp] theorem frames_cons (message : Bytes) (messages : List Bytes) :
    frames (message :: messages) = frame message ++ frames messages := rfl

@[simp] theorem frames_append (messages later : List Bytes) :
    frames (messages ++ later) = frames messages ++ frames later :=
  List.flatMap_append

/-- A frame is recognised whatever follows it. -/
theorem frame_append_inj {message message' rest rest' : Bytes}
    (hlength : message.length < 2 ^ 32) (hlength' : message'.length < 2 ^ 32)
    (heq : frame message ++ rest = frame message' ++ rest') :
    message = message' ∧ rest = rest' := by
  rw [frame_eq, frame_eq, List.append_assoc, List.append_assoc] at heq
  obtain ⟨hsize, hbody⟩ := List.append_inj heq (by simp)
  have hsame : message.length = message'.length := by
    rw [← bigEndian_sizeBytes hlength, hsize, bigEndian_sizeBytes hlength']
  exact List.append_inj hbody hsame

/-- The messages read off a stream are the first ones that were written. -/
theorem exists_of_frames_eq {written read : List Bytes} {rest : Bytes}
    (hwritten : ∀ message ∈ written, message.length < 2 ^ 32)
    (hread : ∀ message ∈ read, message.length < 2 ^ 32)
    (heq : frames written = frames read ++ rest) :
    ∃ later, written = read ++ later ∧ frames later = rest := by
  induction read generalizing written with
  | nil => exact ⟨written, rfl, by simpa using heq⟩
  | cons message read ih =>
      cases written with
      | nil =>
          have hlength := congrArg List.length heq
          simp [frame_eq] at hlength
          omega
      | cons first written =>
          rw [frames_cons, frames_cons, List.append_assoc] at heq
          obtain ⟨rfl, htail⟩ := frame_append_inj (hwritten first (by simp))
            (hread message (by simp)) heq
          obtain ⟨later, rfl, hlater⟩ := ih
            (fun other hother => hwritten other (by simp [hother]))
            (fun other hother => hread other (by simp [hother])) htail
          exact ⟨later, rfl, hlater⟩

/-- Four bytes at the end of the messages read are the size of the next one. -/
theorem exists_next_of_frames_eq {written read : List Bytes} {header rest : Bytes}
    (hwritten : ∀ message ∈ written, message.length < 2 ^ 32)
    (hread : ∀ message ∈ read, message.length < 2 ^ 32)
    (heq : frames written = frames read ++ (header ++ rest)) (hheader : header.length = 4) :
    ∃ message ∈ written, Bytes.bigEndian header = message.length := by
  obtain ⟨later, rfl, hlater⟩ := exists_of_frames_eq hwritten hread heq
  cases later with
  | nil =>
      have hlength := congrArg List.length hlater
      simp [hheader] at hlength
      omega
  | cons message later =>
      rw [frames_cons, frame_eq, List.append_assoc] at hlater
      obtain ⟨hsize, _⟩ := List.append_inj hlater (by simp [hheader])
      refine ⟨message, by simp, ?_⟩
      rw [← hsize, bigEndian_sizeBytes (hwritten message (by simp))]

/-! The client. -/

/-- What two calls of `socketSend` put on the stream for a message. -/
def transmitted (message : Bytes) : Bytes :=
  sizeBytes message.length ++ message.take (intSize message.length)

theorem transmitted_eq_frame {message : Bytes} (hlength : message.length < 2 ^ 31) :
    transmitted message = frame message := by
  rw [transmitted, frame_eq, intSize_of_lt hlength, List.take_length]

/-- `getResponse` between its two calls of `socketRecv`, with the bytes received so
far. -/
inductive Reader
  | size (got : Bytes)
  | data (msgLen : Nat) (got : Bytes)

/-- `outgoing` has left `sendCommand`, `arrived` waits for the server, `returned` waits
for the client. The lists keep what was framed, answered and read. -/
structure Connection where
  commands : List Bytes
  outgoing : Bytes
  arrived : Bytes
  served : List (Bytes × Bytes)
  returned : Bytes
  reader : Reader
  responses : List Bytes

def Connection.fresh : Connection := ⟨[], [], [], [], [], .size [], []⟩

inductive ClientTurn : Connection → Connection → Prop
  | send (conn : Connection) (chunk outgoing : Bytes) (hchunk : chunk ≠ [])
      (houtgoing : conn.outgoing = chunk ++ outgoing) :
      ClientTurn conn
        { conn with
          outgoing := outgoing
          arrived := conn.arrived ++ chunk }
  | receiveSize (conn : Connection) (got chunk returned : Bytes) (hchunk : chunk ≠ [])
      (hreader : conn.reader = .size got) (hsize : got.length + chunk.length ≤ 4)
      (hreturned : conn.returned = chunk ++ returned) :
      ClientTurn conn { conn with returned := returned, reader := .size (got ++ chunk) }
  | sizeReceived (conn : Connection) (got : Bytes) (hreader : conn.reader = .size got)
      (hgot : got.length = 4) :
      ClientTurn conn { conn with reader := .data (Bytes.bigEndian got) [] }
  | receiveData (conn : Connection) (msgLen : Nat) (got chunk returned : Bytes)
      (hchunk : chunk ≠ []) (hreader : conn.reader = .data msgLen got)
      (hsize : got.length + chunk.length ≤ intSize msgLen)
      (hreturned : conn.returned = chunk ++ returned) :
      ClientTurn conn
        { conn with returned := returned, reader := .data msgLen (got ++ chunk) }
  | dataReceived (conn : Connection) (msgLen : Nat) (got : Bytes)
      (hreader : conn.reader = .data msgLen got) (hgot : got.length = intSize msgLen) :
      ClientTurn conn
        { conn with
          reader := .size []
          responses :=
            conn.responses ++ [got ++ List.replicate (msgLen - got.length) 0] }

/-! The worker. -/

/-- Where a worker is in its loop. It holds the bytes received so far, or those still
to be sent. -/
inductive Worker
  | idle
  | receiveSize (sock : Nat) (got : Bytes)
  | receiveData (sock msgLen : Nat) (got : Bytes)
  | process (sock : Nat) (msgBuf : Bytes)
  | sendSize (sock : Nat) (rest response : Bytes)
  | sendData (sock : Nat) (rest : Bytes)

namespace Worker

def sock? : Worker → Option Nat
  | idle => none
  | receiveSize sock _ => some sock
  | receiveData sock _ _ => some sock
  | process sock _ => some sock
  | sendSize sock _ _ => some sock
  | sendData sock _ => some sock

/-- Inside a call of `socketRecv` or `socketSend`. -/
def OnSocket : Worker → Prop
  | idle => False
  | process _ _ => False
  | _ => True

/-- In the middle of a `socketRecv`. -/
def AwaitsBytes : Worker → Prop
  | receiveSize _ got => got.length < 4
  | receiveData _ msgLen got => got.length < msgLen
  | _ => False

end Worker

/-- The steps of a worker that only move bytes. -/
inductive Transfer (sock : Nat) : Connection → Worker → Connection → Worker → Prop
  | receiveSize (conn : Connection) (got chunk arrived : Bytes) (hchunk : chunk ≠ [])
      (hsize : got.length + chunk.length ≤ 4) (harrived : conn.arrived = chunk ++ arrived) :
      Transfer sock conn (.receiveSize sock got)
        { conn with arrived := arrived } (.receiveSize sock (got ++ chunk))
  | sizeReceived (conn : Connection) (got : Bytes) (hgot : got.length = 4)
      (hsize : Bytes.bigEndian got ≤ maxSize) :
      Transfer sock conn (.receiveSize sock got)
        conn (.receiveData sock (Bytes.bigEndian got) [])
  | receiveData (conn : Connection) (msgLen : Nat) (got chunk arrived : Bytes)
      (hchunk : chunk ≠ []) (hsize : got.length + chunk.length ≤ msgLen)
      (harrived : conn.arrived = chunk ++ arrived) :
      Transfer sock conn (.receiveData sock msgLen got)
        { conn with arrived := arrived } (.receiveData sock msgLen (got ++ chunk))
  | dataReceived (conn : Connection) (msgLen : Nat) (got : Bytes)
      (hgot : got.length = msgLen) :
      Transfer sock conn (.receiveData sock msgLen got) conn (.process sock got)
  | sendSize (conn : Connection) (chunk rest response : Bytes) (hchunk : chunk ≠ []) :
      Transfer sock conn (.sendSize sock (chunk ++ rest) response)
        { conn with returned := conn.returned ++ chunk } (.sendSize sock rest response)
  | sizeSent (conn : Connection) (response : Bytes) :
      Transfer sock conn (.sendSize sock [] response)
        conn (.sendData sock (response.take (intSize response.length)))
  | sendData (conn : Connection) (chunk rest : Bytes) (hchunk : chunk ≠ []) :
      Transfer sock conn (.sendData sock (chunk ++ rest))
        { conn with returned := conn.returned ++ chunk } (.sendData sock rest)

theorem Transfer.sock?_eq {sock : Nat} {conn conn' : Connection} {worker worker' : Worker}
    (htransfer : Transfer sock conn worker conn' worker') :
    worker.sock? = some sock ∧ worker'.sock? = some sock := by
  cases htransfer <;> exact ⟨rfl, rfl⟩

theorem Transfer.not_awaits {sock : Nat} {conn conn' : Connection} {worker worker' : Worker}
    (htransfer : Transfer sock conn worker conn' worker') (harrived : conn.arrived = []) :
    ¬ worker.AwaitsBytes := by
  cases htransfer with
  | receiveSize got chunk arrived hchunk hsize hbytes =>
      rw [harrived] at hbytes
      exact absurd (List.append_eq_nil_iff.mp hbytes.symm).1 hchunk
  | sizeReceived got hgot hsize => exact fun hawaits => hawaits.ne hgot
  | receiveData msgLen got chunk arrived hchunk hsize hbytes =>
      rw [harrived] at hbytes
      exact absurd (List.append_eq_nil_iff.mp hbytes.symm).1 hchunk
  | dataReceived msgLen got hgot => exact fun hawaits => hawaits.ne hgot
  | sendSize chunk rest response hchunk => exact id
  | sizeSent response => exact id
  | sendData chunk rest hchunk => exact id

/-! Both directions of a connection that is served without failures. -/

/-- What was taken of the message that is not complete yet. -/
def Reader.consumed : Reader → Bytes
  | .size got => got
  | .data msgLen got => sizeBytes msgLen ++ got

namespace Worker

def consumed : Worker → Bytes
  | receiveSize _ got => got
  | receiveData _ msgLen got => sizeBytes msgLen ++ got
  | process _ msgBuf => frame msgBuf
  | _ => []

def unsent : Worker → Bytes
  | sendSize _ rest response => rest ++ response
  | sendData _ rest => rest
  | _ => []

def WellFormed : Worker → Prop
  | receiveData _ msgLen _ => msgLen ≤ maxSize
  | process _ msgBuf => msgBuf.length ≤ maxSize
  | sendSize _ _ response => response.length < 2 ^ 31
  | _ => True

end Worker

def Reader.WellFormed : Reader → Prop
  | .size _ => True
  | .data msgLen _ => msgLen < 2 ^ 31

/-- The framed commands are those served, then what a worker took of the next one,
then what is under way; and likewise for the responses. -/
structure InOrder (conn : Connection) (consumed unsent : Bytes) : Prop where
  commands_length : ∀ command ∈ conn.commands, command.length ≤ maxSize
  served_length : ∀ pair ∈ conn.served,
    pair.1.length ≤ maxSize ∧ pair.2.length < 2 ^ 31
  responses_length : ∀ response ∈ conn.responses, response.length < 2 ^ 31
  reader : conn.reader.WellFormed
  received : frames conn.commands =
    frames (conn.served.map Prod.fst) ++ (consumed ++ (conn.arrived ++ conn.outgoing))
  sent : frames (conn.served.map Prod.snd) =
    frames conn.responses ++ (conn.reader.consumed ++ (conn.returned ++ unsent))

namespace InOrder

theorem fresh : InOrder .fresh [] [] where
  commands_length := by simp [Connection.fresh]
  served_length := by simp [Connection.fresh]
  responses_length := by simp [Connection.fresh]
  reader := trivial
  received := rfl
  sent := rfl

variable {conn : Connection} {consumed unsent : Bytes}

theorem commands_lt (horder : InOrder conn consumed unsent) :
    ∀ command ∈ conn.commands, command.length < 2 ^ 32 := fun command hcommand =>
  (horder.commands_length command hcommand).trans_lt (by decide)

theorem served_commands_lt (horder : InOrder conn consumed unsent) :
    ∀ command ∈ conn.served.map Prod.fst, command.length < 2 ^ 32 := by
  intro command hcommand
  obtain ⟨pair, hpair, rfl⟩ := List.mem_map.mp hcommand
  exact (horder.served_length pair hpair).1.trans_lt (by decide)

theorem served_responses_lt (horder : InOrder conn consumed unsent) :
    ∀ response ∈ conn.served.map Prod.snd, response.length < 2 ^ 31 := by
  intro response hresponse
  obtain ⟨pair, hpair, rfl⟩ := List.mem_map.mp hresponse
  exact (horder.served_length pair hpair).2

theorem served_responses_lt_size (horder : InOrder conn consumed unsent) :
    ∀ response ∈ conn.served.map Prod.snd, response.length < 2 ^ 32 :=
  fun response hresponse => (horder.served_responses_lt response hresponse).trans (by decide)

theorem responses_lt_size (horder : InOrder conn consumed unsent) :
    ∀ response ∈ conn.responses, response.length < 2 ^ 32 :=
  fun response hresponse => (horder.responses_length response hresponse).trans (by decide)

/-- The served commands are the first of the framed ones. -/
theorem exists_later_commands (horder : InOrder conn consumed unsent) :
    ∃ later, conn.commands = conn.served.map Prod.fst ++ later ∧
      frames later = consumed ++ (conn.arrived ++ conn.outgoing) :=
  exists_of_frames_eq horder.commands_lt horder.served_commands_lt horder.received

/-- The responses read are the first of the served ones. -/
theorem exists_later_responses (horder : InOrder conn consumed unsent) :
    ∃ later, conn.served.map Prod.snd = conn.responses ++ later ∧
      frames later = conn.reader.consumed ++ (conn.returned ++ unsent) :=
  exists_of_frames_eq horder.served_responses_lt_size horder.responses_lt_size horder.sent

theorem next_command_length {got : Bytes} (horder : InOrder conn got unsent)
    (hgot : got.length = 4) : Bytes.bigEndian got ≤ maxSize := by
  obtain ⟨command, hcommand, hsize⟩ := exists_next_of_frames_eq horder.commands_lt
    horder.served_commands_lt horder.received hgot
  rw [hsize]
  exact horder.commands_length command hcommand

theorem next_response_length {got : Bytes} (horder : InOrder conn consumed unsent)
    (hreader : conn.reader = .size got) (hgot : got.length = 4) :
    Bytes.bigEndian got < 2 ^ 31 := by
  have hsent := horder.sent
  rw [hreader, Reader.consumed] at hsent
  obtain ⟨response, hresponse, hsize⟩ := exists_next_of_frames_eq
    horder.served_responses_lt_size horder.responses_lt_size hsent hgot
  rw [hsize]
  exact horder.served_responses_lt response hresponse

theorem command (horder : InOrder conn consumed unsent) {message : Bytes}
    (hlength : message.length ≤ maxSize) :
    InOrder
      { conn with
        commands := conn.commands ++ [message]
        outgoing := conn.outgoing ++ transmitted message } consumed unsent :=
  { horder with
    commands_length := List.forall_mem_append.mpr
      ⟨horder.commands_length, List.forall_mem_singleton.mpr hlength⟩
    received := by
      have hframe : transmitted message = frame message :=
        transmitted_eq_frame (hlength.trans_lt (by decide))
      simp only [frames_append, horder.received, frames_cons, frames_nil, hframe,
        List.append_assoc, List.append_nil] }

theorem clientTurn (horder : InOrder conn consumed unsent) {conn' : Connection}
    (hturn : ClientTurn conn conn') : InOrder conn' consumed unsent := by
  cases hturn with
  | send chunk outgoing hchunk houtgoing =>
      exact
        { horder with
          received := by rw [horder.received, houtgoing, List.append_assoc conn.arrived] }
  | receiveSize got chunk returned hchunk hreader hsize hreturned =>
      exact
        { horder with
          reader := trivial
          sent := by
            rw [horder.sent, hreader, hreturned]
            simp only [Reader.consumed, List.append_assoc] }
  | sizeReceived got hreader hgot =>
      exact
        { horder with
          reader := horder.next_response_length hreader hgot
          sent := by
            rw [horder.sent, hreader]
            simp only [Reader.consumed, sizeBytes_bigEndian hgot, List.append_nil] }
  | receiveData msgLen got chunk returned hchunk hreader hsize hreturned =>
      have hsmall := horder.reader
      rw [hreader] at hsmall
      exact
        { horder with
          reader := hsmall
          sent := by
            rw [horder.sent, hreader, hreturned]
            simp only [Reader.consumed, List.append_assoc] }
  | dataReceived msgLen got hreader hgot =>
      have hsmall : msgLen < 2 ^ 31 := by
        have hwell := horder.reader
        rwa [hreader] at hwell
      rw [intSize_of_lt hsmall] at hgot
      have hresponse : got ++ List.replicate (msgLen - got.length) 0 = got := by
        simp [hgot]
      exact
        { horder with
          responses_length := by
            rw [hresponse]
            exact List.forall_mem_append.mpr
              ⟨horder.responses_length, List.forall_mem_singleton.mpr (hgot ▸ hsmall)⟩
          reader := trivial
          sent := by
            rw [horder.sent, hreader, hresponse]
            simp only [Reader.consumed, frames_append, frames_cons, frames_nil, frame_eq, hgot,
              List.append_assoc, List.append_nil, List.nil_append] }

/-- The command that was received is answered. -/
theorem process {sock : Nat} {msgBuf response : Bytes}
    (horder : InOrder conn (Worker.process sock msgBuf).consumed unsent)
    (hmsgBuf : msgBuf.length ≤ maxSize) (hresponse : response.length < 2 ^ 31) :
    InOrder { conn with served := conn.served ++ [(msgBuf, response)] } []
      (unsent ++ frame response) :=
  { horder with
    served_length := List.forall_mem_append.mpr
      ⟨horder.served_length, List.forall_mem_singleton.mpr ⟨hmsgBuf, hresponse⟩⟩
    received := by
      rw [horder.received]
      simp only [Worker.consumed, List.map_append, List.map_cons, List.map_nil, frames_append,
        frames_cons, frames_nil, List.append_assoc, List.append_nil, List.nil_append]
    sent := by
      simp only [List.map_append, List.map_cons, List.map_nil, frames_append, frames_cons,
        frames_nil, horder.sent, List.append_assoc, List.append_nil] }

theorem transfer {sock : Nat} {worker worker' : Worker} {conn' : Connection}
    (htransfer : Transfer sock conn worker conn' worker')
    (hworker : worker.WellFormed) (horder : InOrder conn worker.consumed worker.unsent) :
    worker'.WellFormed ∧ InOrder conn' worker'.consumed worker'.unsent := by
  cases htransfer with
  | receiveSize got chunk arrived hchunk hsize harrived =>
      refine ⟨trivial, { horder with received := ?_ }⟩
      rw [horder.received, harrived]
      simp only [Worker.consumed, List.append_assoc]
  | sizeReceived got hgot hsize =>
      refine ⟨hsize, { horder with received := ?_ }⟩
      rw [horder.received]
      simp only [Worker.consumed, sizeBytes_bigEndian hgot, List.append_nil]
  | receiveData msgLen got chunk arrived hchunk hsize harrived =>
      refine ⟨hworker, { horder with received := ?_ }⟩
      rw [horder.received, harrived]
      simp only [Worker.consumed, List.append_assoc]
  | dataReceived msgLen got hgot =>
      refine ⟨hgot.trans_le hworker, { horder with received := ?_ }⟩
      rw [horder.received]
      simp only [Worker.consumed, frame_eq, hgot]
  | sendSize chunk rest response hchunk =>
      refine ⟨hworker, { horder with sent := ?_ }⟩
      rw [horder.sent]
      simp only [Worker.unsent, List.append_assoc]
  | sizeSent response =>
      refine ⟨trivial, { horder with sent := ?_ }⟩
      rw [horder.sent, intSize_of_lt hworker, List.take_length]
      simp only [Worker.unsent, List.nil_append]
  | sendData chunk rest hchunk =>
      refine ⟨trivial, { horder with sent := ?_ }⟩
      rw [horder.sent]
      simp only [Worker.unsent, List.append_assoc]

end InOrder

end VotingSystem.Server
