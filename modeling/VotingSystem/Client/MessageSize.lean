import VotingSystem.Client.Client
import VotingSystem.Server.SmallElection
import VotingSystem.Server.ThreadPool
import VotingSystem.Wire.Size

namespace VotingSystem.Client

open VotingSystem.Data VotingSystem.Wire VotingSystem.Crypto VotingSystem.Protos
open VotingSystem.Storage (Database)
open VotingSystem.Server (Libraries frame receiveCommand maxSize
  receiveCommand_frame_iff threadLoop threadLoop_too_large typeAndData)
open VotingSystem.Server.SmallElection (referenceLib)

/-! The size of the command that casts a ballot, against the limit of the server. -/

def rsaPublicKeySizeDer : Nat := 294

/-- The sizes of a 2048-bit key and of its signatures. -/
structure Rsa2048 (lib : Libraries) (config : Config) : Prop where
  pubKey_length : config.clientPubKey.length = rsaPublicKeySizeDer
  signature_length : ∀ msg signature,
    rsaSign lib.wolf msg config.clientPrivKey rsaSignatureSize = some signature →
      signature.length = rsaSignatureSize

section Size

variable (config : Config)

theorem encode_encryptedBallotEntry_length (choice : Choice) :
    515 ≤ (encode (encryptedBallotEntry config choice)).length ∧
      (encode (encryptedBallotEntry config choice)).length ≤ 526 := by
  have hcandidate := Record.serialize_optionalInt32_length_le
    (by omega : 2 < 16) (encryptedBallotEntry config choice).candidateId
  have hlength := encryptedBallotEntry_length config choice
  have hvalue := Record.serialize_bytes_length_eq (by omega : 3 < 16) hlength
    (by decide) (by decide)
  rw [pCiphertextMaxLen] at hvalue
  have hid : Record.optionalInt32 1 (encryptedBallotEntry config choice).id = [] := rfl
  simp only [encode, Message.records, hid, List.nil_append, serialize_append,
    serialize_cons, serialize_nil, List.append_nil, List.length_append, hvalue]
  omega

theorem encode_encryptedBallot_length (eid : Int32) (choices : List Choice) :
    518 * choices.length ≤ (encode (encryptedBallot config eid choices)).length ∧
      (encode (encryptedBallot config eid choices)).length ≤ 529 * choices.length + 11 := by
  have helection := Record.serialize_optionalInt32_length_le (by omega : 1 < 16) eid
  have hentries := @serialize_map_length EncryptedBallotEntry
    (fun entry => .bytes 2 (encode entry)) 518 529
    (choices.map (encryptedBallotEntry config)) (by
      intro entry hentry
      obtain ⟨choice, _, rfl⟩ := List.mem_map.mp hentry
      have hentry := encode_encryptedBallotEntry_length config choice
      rw [Record.serialize_bytes_length_eq (by omega) rfl (by omega) (by omega)]
      omega)
  rw [List.length_map] at hentries
  simp only [encode, Message.records, encryptedBallot, serialize_append, List.length_append]
    at hentries ⊢
  omega

end Size

variable {lib : Libraries} {config : Config}

/-- The type is left out of the request for elections, whose value is zero. -/
theorem sendCommand_length_eq (hrsa : Rsa2048 lib config) {commandType : CommandType}
    {data bytes : Bytes} (hsend : sendCommand lib config commandType data = some bytes) :
    bytes.length = (serialize (Record.optionalUint32 1 commandType.value)).length +
      (Record.bytes 2 data).serialize.length + 556 := by
  obtain ⟨signature, hsign, rfl⟩ := sendCommand_eq_some hsend
  have hkey := Record.serialize_bytes_length_eq (by omega : 3 < 16) hrsa.pubKey_length
    (by decide) (by decide)
  have hsignature := Record.serialize_bytes_length_eq (by omega : 4 < 16)
    (hrsa.signature_length _ _ hsign) (by decide) (by decide)
  rw [rsaPublicKeySizeDer] at hkey
  rw [rsaSignatureSize] at hsignature
  simp only [encode, Message.records, serialize_append, serialize_cons, serialize_nil,
    List.length_append, List.length_nil, hkey, hsignature]
  omega

theorem sendCommand_length (hrsa : Rsa2048 lib config) {data bytes : Bytes}
    (hsend : sendCommand lib config .castBallot data = some bytes) :
    bytes.length = (Record.bytes 2 data).serialize.length + 558 := by
  have htype : (serialize (Record.optionalUint32 1 CommandType.castBallot.value)).length =
      2 := by decide
  rw [sendCommand_length_eq hrsa hsend, htype]
  omega

theorem sendCommand_length_le (hrsa : Rsa2048 lib config) {commandType : CommandType}
    {data bytes : Bytes} (hsend : sendCommand lib config commandType data = some bytes) :
    bytes.length ≤ (Record.bytes 2 data).serialize.length + 558 := by
  have htype : (serialize (Record.optionalUint32 1 commandType.value)).length ≤ 2 := by
    cases commandType <;> decide
  rw [sendCommand_length_eq hrsa hsend]
  omega

/-- An election of two million candidates still gives a message that `int` sizes hold. -/
theorem castBallot_length_lt (hrsa : Rsa2048 lib config) {eid : Int32}
    {choices : List Choice} {command : Bytes}
    (hcast : castBallot lib config eid choices = some command)
    (hchoices : choices.length < 2 ^ 21) : command.length < 2 ^ 31 := by
  obtain ⟨ballotEnc, hencode, hsend⟩ := Option.bind_eq_some_iff.mp hcast
  obtain ⟨_, rfl⟩ := encodeMessage_eq_some.mp hencode
  have hballot := encode_encryptedBallot_length config eid choices
  have hcapacity :
      (encode (encryptedBallot config eid choices)).length < 128 ^ (4 + 1) := by omega
  have hwidth := encodeVarint_length_le hcapacity
  rw [sendCommand_length hrsa hsend, Record.serialize_bytes_length (by omega)]
  omega

theorem castBallot_length_le_iff (hrsa : Rsa2048 lib config) {eid : Int32}
    {choices : List Choice} {command : Bytes}
    (hcast : castBallot lib config eid choices = some command) :
    command.length ≤ maxSize ↔ choices.length ≤ 2 := by
  obtain ⟨ballotEnc, hencode, hsend⟩ := Option.bind_eq_some_iff.mp hcast
  obtain ⟨_, rfl⟩ := encodeMessage_eq_some.mp hencode
  have hballot := encode_encryptedBallot_length config eid choices
  have hlower := Record.lt_serialize_bytes_length (by omega : 2 < 16)
    (encode (encryptedBallot config eid choices))
  rw [sendCommand_length hrsa hsend, maxSize]
  constructor
  · intro hsize
    omega
  · intro hfew
    have hcapacity :
        (encode (encryptedBallot config eid choices)).length < 128 ^ (1 + 1) := by omega
    have hwidth := encodeVarint_length_le hcapacity
    rw [Record.serialize_bytes_length (by omega)]
    omega

/-- The server receives the vote of an honest client exactly when the election has
at most two candidates. -/
theorem castBallot_received_iff (hrsa : Rsa2048 lib config) (eid : Int32)
    (choices : List Choice) {command : Bytes}
    (hcast : castBallot lib config eid choices = some command) :
    receiveCommand (frame command) = some (command, []) ↔ choices.length ≤ 2 := by
  rw [receiveCommand_frame_iff, castBallot_length_le_iff hrsa hcast]

def transparentConfig : Config where
  clientPubKey := (Transparent.keyPair 1).pubKey ++ List.replicate 292 0
  clientPrivKey := (Transparent.keyPair 1).privKey
  serverPubKey := (Transparent.keyPair 0).pubKey
  serverPaillierPubKey := pubHex KeyPair.reference.modulus

theorem transparent_rsa2048 : Rsa2048 referenceLib transparentConfig where
  pubKey_length := by
    rw [transparentConfig, List.length_append, List.length_replicate]
    rfl
  signature_length := by
    intro msg signature hsign
    have hkey := Transparent.rsaSign_keyPair 1 msg
    obtain rfl := Option.some.inj (hkey.symm.trans hsign)
    exact Transparent.signature_length (by decide) 1 msg

def transparentCommand (eid : Int32) (choices : List Choice) : Bytes :=
  let data := encode (encryptedBallot transparentConfig eid choices)
  encode (⟨CommandType.castBallot.value, data, transparentConfig.clientPubKey,
    Transparent.signature 1 256 (typeAndData CommandType.castBallot.value data)⟩ : Command)

theorem castBallot_transparent (eid : Int32) (choices : List Choice) :
    castBallot referenceLib transparentConfig eid choices =
      some (transparentCommand eid choices) := by
  have hencode : ∀ {α : Type} [Message α] (message : α),
      encodeMessage referenceLib.encodeFails message = some (encode message) :=
    fun message => encodeMessage_eq_some.mpr ⟨rfl, rfl⟩
  have hsign : ∀ msg, rsaSign referenceLib.wolf msg transparentConfig.clientPrivKey
      rsaSignatureSize = some (Transparent.signature 1 256 msg) :=
    Transparent.rsaSign_keyPair 1
  simp only [castBallot, sendCommand, hencode, hsign, Option.bind_eq_bind,
    Option.bind_some, transparentCommand]

theorem castBallot_received_iff_one :
    receiveCommand (frame (transparentCommand 1 [⟨1, 1, .drawn 1⟩])) =
        some (transparentCommand 1 [⟨1, 1, .drawn 1⟩], []) ↔
      [(⟨1, 1, .drawn 1⟩ : Choice)].length ≤ 2 :=
  castBallot_received_iff transparent_rsa2048 1 [⟨1, 1, .drawn 1⟩]
    (castBallot_transparent 1 [⟨1, 1, .drawn 1⟩])

theorem three_candidates_not_received :
    Rsa2048 referenceLib transparentConfig ∧
      castBallot referenceLib transparentConfig 1
          [⟨1, 1, .drawn 1⟩, ⟨2, 0, .drawn 1⟩, ⟨3, 0, .drawn 1⟩] =
        some (transparentCommand 1 [⟨1, 1, .drawn 1⟩, ⟨2, 0, .drawn 1⟩, ⟨3, 0, .drawn 1⟩]) ∧
      receiveCommand (frame (transparentCommand 1
          [⟨1, 1, .drawn 1⟩, ⟨2, 0, .drawn 1⟩, ⟨3, 0, .drawn 1⟩])) ≠
        some (transparentCommand 1
          [⟨1, 1, .drawn 1⟩, ⟨2, 0, .drawn 1⟩, ⟨3, 0, .drawn 1⟩], []) := by
  have hcast := castBallot_transparent 1
    [⟨1, 1, .drawn 1⟩, ⟨2, 0, .drawn 1⟩, ⟨3, 0, .drawn 1⟩]
  refine ⟨transparent_rsa2048, hcast, fun hreceived => ?_⟩
  have hsize := (receiveCommand_frame_iff _).mp hreceived
  have hfew := (castBallot_length_le_iff transparent_rsa2048 hcast).mp hsize
  exact absurd hfew (by decide)

theorem castBallot_dropped (hrsa : Rsa2048 lib config) {eid : Int32}
    {choices : List Choice} {command : Bytes}
    (hcast : castBallot lib config eid choices = some command)
    (hmany : 2 < choices.length) (hlength : command.length < 2 ^ 32)
    (server : Server.Config) (currTime : Int) (db : Database) :
    threadLoop lib server currTime db (frame command) = (none, db) := by
  have hlarge : ¬command.length ≤ maxSize := by
    rw [castBallot_length_le_iff hrsa hcast]
    omega
  exact threadLoop_too_large (by omega) hlength

end VotingSystem.Client
