import VotingSystem.Server.ProcessCommand

namespace VotingSystem.Server

open VotingSystem.Data VotingSystem.Wire VotingSystem.Protos VotingSystem.Storage

/-! `ThreadPool::threadLoop`, one turn at a time, over the bytes that have arrived
on a connection. -/

/-- `MAX_SIZE`. -/
def maxSize : Nat := 2000

/-- The size of a message as an `unsigned int` in network byte order, then the
message. -/
def frame (message : Bytes) : Bytes :=
  (Bytes.ofNatLE 4 message.length).reverse ++ message

/-- A command and the bytes after it. `none` drops the connection: too few bytes
arrive in time, or the message is too large. -/
def receiveCommand (received : Bytes) : Option (Bytes × Bytes) := do
  let (header, rest) ← takeExactly 4 received
  let msgLen := Bytes.bigEndian header
  if maxSize < msgLen then none else takeExactly msgLen rest

/-- The bytes sent back and the bytes that wait for the next turn, or `none` when
the connection does not return to the queue. -/
def threadLoop (lib : Libraries) (config : Config) (currTime : Int) (db : Database)
    (received : Bytes) : Option (Bytes × Bytes) × Database :=
  match receiveCommand received with
  | none => (none, db)
  | some (msgBuf, rest) =>
      match processCommand lib config currTime db msgBuf with
      | (none, db) => (none, db)
      | (some response, db) => (some (frame response, rest), db)

theorem receiveCommand_length_le {received msgBuf rest : Bytes}
    (hreceive : receiveCommand received = some (msgBuf, rest)) :
    msgBuf.length ≤ maxSize := by
  obtain ⟨⟨header, body⟩, _, hbody⟩ := Option.bind_eq_some_iff.mp hreceive
  simp only at hbody
  split at hbody
  · contradiction
  · unfold takeExactly at hbody
    split at hbody
    · simp only [Option.some.injEq, Prod.mk.injEq] at hbody
      rw [← hbody.1, List.length_take]
      omega
    · contradiction

theorem receiveCommand_frame {message : Bytes} (hlength : message.length < 2 ^ 32)
    (rest : Bytes) :
    receiveCommand (frame message ++ rest) =
      if message.length ≤ maxSize then some (message, rest) else none := by
  have hheader : takeExactly 4 (frame message ++ rest) =
      some ((Bytes.ofNatLE 4 message.length).reverse, message ++ rest) := by
    rw [frame, List.append_assoc]
    exact Record.takeExactly_append (by simp)
  have hmsgLen : Bytes.bigEndian (Bytes.ofNatLE 4 message.length).reverse =
      message.length := by
    rw [Bytes.bigEndian_reverse, Bytes.littleEndian_ofNatLE]
    exact Nat.mod_eq_of_lt hlength
  simp only [receiveCommand, hheader, Option.bind_eq_bind, Option.bind_some, hmsgLen]
  by_cases hsize : message.length ≤ maxSize
  · rw [if_neg (by omega), if_pos hsize]
    exact Record.takeExactly_append rfl
  · rw [if_pos (by omega), if_neg hsize]

theorem receiveCommand_frame_iff (message : Bytes) :
    receiveCommand (frame message) = some (message, []) ↔ message.length ≤ maxSize := by
  constructor
  · exact receiveCommand_length_le
  · intro hsize
    have hlength : message.length < 2 ^ 32 := hsize.trans_lt (by decide)
    have hreceive := receiveCommand_frame hlength []
    rwa [List.append_nil, if_pos hsize] at hreceive

theorem threadLoop_frame {lib : Libraries} {config : Config} {currTime : Int}
    {db : Database} {message : Bytes} (hsize : message.length ≤ maxSize) :
    threadLoop lib config currTime db (frame message) =
      ((processCommand lib config currTime db message).1.map fun response =>
          (frame response, []),
        (processCommand lib config currTime db message).2) := by
  unfold threadLoop
  simp only [(receiveCommand_frame_iff message).mpr hsize]
  cases processCommand lib config currTime db message with
  | mk response db' => cases response <;> rfl

theorem threadLoop_too_large {lib : Libraries} {config : Config} {currTime : Int}
    {db : Database} {message : Bytes} (hsize : maxSize < message.length)
    (hlength : message.length < 2 ^ 32) :
    threadLoop lib config currTime db (frame message) = (none, db) := by
  have hreceive := receiveCommand_frame hlength []
  rw [List.append_nil, if_neg (by omega)] at hreceive
  simp only [threadLoop, hreceive]

end VotingSystem.Server
