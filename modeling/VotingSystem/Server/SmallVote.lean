import VotingSystem.Server.SmallElection
import VotingSystem.Server.ThreadPool
import VotingSystem.Wire.Size

namespace VotingSystem.Server

open VotingSystem.Data VotingSystem.Wire VotingSystem.Crypto VotingSystem.Protos
open VotingSystem.Storage

/-! The vote of the small election and the receipt for it, as messages. -/

theorem encode_ballot_length_le (electionId entryId candidateId : Int32) {value : Bytes}
    (hvalue : value.length = 512) :
    (encode (⟨electionId, [⟨entryId, candidateId, value⟩]⟩ : EncryptedBallot)).length ≤
      551 := by
  have hid := Record.serialize_optionalInt32_length_le (by omega : 1 < 16) entryId
  have hcandidate := Record.serialize_optionalInt32_length_le (by omega : 2 < 16) candidateId
  have helection := Record.serialize_optionalInt32_length_le (by omega : 1 < 16) electionId
  have hbytes := Record.serialize_bytes_length_le (by omega : 3 < 16) hvalue.le (by decide)
  have hentry : (encode (⟨entryId, candidateId, value⟩ : EncryptedBallotEntry)).length ≤
      537 := by
    simp only [encode, Message.records, serialize_append, serialize_cons, serialize_nil,
      List.append_nil, List.length_append]
    omega
  have hentries := Record.serialize_bytes_length_le (by omega : 2 < 16) hentry (by decide)
  have hencode : encode (⟨electionId, [⟨entryId, candidateId, value⟩]⟩ : EncryptedBallot) =
      serialize (Record.optionalInt32 1 electionId ++
        [.bytes 2 (encode (⟨entryId, candidateId, value⟩ : EncryptedBallotEntry))]) := rfl
  rw [hencode, serialize_append, serialize_cons, serialize_nil, List.append_nil,
    List.length_append]
  omega

/-- The vote of the small election fits the limit for messages. -/
theorem referenceVote_length :
    0 < (encode (SmallElection.referenceVote CommandType.castBallot.value [])).length ∧
      (encode (SmallElection.referenceVote CommandType.castBallot.value [])).length ≤
        maxSize := by
  have hballot : (encode (SmallElection.reference.ballot (2 ^ 56) 1)).length ≤ 551 :=
    encode_ballot_length_le 1 0 1 (ciphertextBytes_length _)
  have hdata := Record.serialize_bytes_length_le (by omega : 2 < 16) hballot (by decide)
  have hkey := Record.serialize_bytes_length_le (by omega : 3 < 16)
    (le_refl SmallElection.reference.voterKey.length) (by decide)
  have hsignature := Record.serialize_bytes_length_le (by omega : 4 < 16)
    (Transparent.signature_length (by decide : sha256DigestSize < 256) 1 []).le (by decide)
  have htype : (serialize (Record.optionalUint32 1 CommandType.castBallot.value)).length =
      2 := by decide
  have hkeyLength : SmallElection.reference.voterKey.length = 2 := rfl
  unfold SmallElection.referenceVote SmallElection.command
  generalize encode (SmallElection.reference.ballot (2 ^ 56) 1) = data at *
  simp only [encode, Message.records, serialize_append, serialize_cons, serialize_nil,
    List.append_nil, List.length_append, htype, maxSize]
  omega

def voteReceipt : CastEncryptedBallot :=
  castReceipt SmallElection.reference.database (SmallElection.referencePending [])

def voteResponse : Bytes :=
  encode (⟨ResponseType.castEncryptedBallot.value, encode voteReceipt,
    SmallElection.reference.config.pubKey, Transparent.signature 0 256
      (typeAndData ResponseType.castEncryptedBallot.value (encode voteReceipt))⟩ : Response)

theorem castResponse_voteResponse :
    castResponse SmallElection.referenceLib SmallElection.reference.config
        SmallElection.reference.database (SmallElection.referencePending []) =
      some voteResponse := by
  have hencode : ∀ {α : Type} [Message α] (message : α),
      encodeMessage SmallElection.referenceLib.encodeFails message = some (encode message) :=
    fun message => encodeMessage_eq_some.mpr ⟨rfl, rfl⟩
  have hsign : ∀ msg, rsaSign SmallElection.referenceLib.wolf msg
      SmallElection.reference.config.privKey rsaSignatureSize =
        some (Transparent.signature 0 256 msg) :=
    Transparent.rsaSign_keyPair 0
  simp only [castResponse, finishResponse, hencode, hsign, Option.bind_eq_bind,
    Option.bind_some, voteResponse, voteReceipt]

theorem processCommand_voteResponse :
    processCommand SmallElection.referenceLib SmallElection.reference.config 5
        SmallElection.reference.database
        (encode (SmallElection.referenceVote CommandType.castBallot.value [])) =
      (some voteResponse,
        insertBallot SmallElection.reference.database (SmallElection.referencePending [])) := by
  rw [SmallElection.reference_stores_vote.processCommand_eq, castResponse_voteResponse]

theorem encode_castReceipt_length_le (small : SmallElection) (db : Database) (castAt : Int)
    (plaintext blind : Nat) {signature : Bytes} (hsignature : signature.length ≤ 256) :
    (encode (castReceipt db (small.pending castAt plaintext blind signature))).length ≤
      1400 := by
  have hvalue := ciphertextBytes_length (small.key.modulus.encrypt plaintext blind)
  have hballot := encode_ballot_length_le 1
    (Int32.ofInt db.castEncryptedBallotEntries.nextval) 1 hvalue
  have hcommand := encode_ballot_length_le 1 0 1 hvalue
  have hid := Record.serialize_optionalInt32_length_le (by omega : 1 < 16)
    (Int32.ofInt db.castEncryptedBallots.nextval)
  have hvoter := Record.serialize_optionalInt32_length_le (by omega : 2 < 16) (Int32.ofInt 1)
  have hcastAt := Record.serialize_optionalInt32_length_le (by omega : 3 < 16)
    (Int32.ofInt castAt)
  have hfourth := Record.serialize_bytes_length_le (by omega : 4 < 16) hballot (by decide)
  have hfifth := Record.serialize_bytes_length_le (by omega : 5 < 16) hcommand (by decide)
  have hsixth := Record.serialize_bytes_length_le (by omega : 6 < 16) hsignature (by decide)
  simp only [castReceipt, SmallElection.pending, SmallElection.ballot, numberEntries] at *
  rw [encode]
  simp only [Message.records, serialize_append, serialize_cons, serialize_nil,
    List.append_nil, List.length_append]
  omega

theorem encode_voteReceipt_length_le : (encode voteReceipt).length ≤ 1400 :=
  encode_castReceipt_length_le .reference _ 5 _ 1
    (Transparent.signature_length (by decide) 1 []).le

theorem voteResponse_length : 0 < voteResponse.length ∧ voteResponse.length < 2 ^ 31 := by
  have hdata := Record.serialize_bytes_length_le (by omega : 2 < 16)
    encode_voteReceipt_length_le (by decide)
  have hkey := Record.serialize_bytes_length_le (by omega : 3 < 16)
    (le_refl SmallElection.reference.config.pubKey.length) (by decide)
  have hsignature := Record.serialize_bytes_length_le (by omega : 4 < 16)
    (Transparent.signature_length (by decide : sha256DigestSize < 256) 0
      (typeAndData ResponseType.castEncryptedBallot.value (encode voteReceipt))).le (by decide)
  have htype :
      (serialize (Record.optionalUint32 1 ResponseType.castEncryptedBallot.value)).length =
        2 := by decide
  have hkeyLength : SmallElection.reference.config.pubKey.length = 2 := rfl
  unfold voteResponse
  generalize encode voteReceipt = data at *
  simp only [encode, Message.records, serialize_append, serialize_cons, serialize_nil,
    List.append_nil, List.length_append, htype]
  omega

end VotingSystem.Server
