import VotingSystem.Crypto.Signature
import VotingSystem.Server.Response

namespace VotingSystem.Client

open VotingSystem.Data VotingSystem.Crypto VotingSystem.Protos
open VotingSystem.Server (Libraries typeAndData)

/-! `Client.cpp`, over the same libraries as the server. Sockets deliver messages
whole. -/

structure Config where
  clientPubKey : Bytes
  clientPrivKey : Bytes
  serverPubKey : Bytes
  serverPaillierPubKey : String
  deriving DecidableEq, Repr

section Messages

variable (lib : Libraries) (config : Config)

def sendCommand (commandType : CommandType) (data : Bytes) : Option Bytes := do
  let signature ← rsaSign lib.wolf (typeAndData commandType.value data)
    config.clientPrivKey rsaSignatureSize
  encodeMessage lib.encodeFails
    { type := commandType.value
      data := data
      pubkey := config.clientPubKey
      signature := signature : Command }

def getResponse (msgBuf : Bytes) : Option (UInt32 × Bytes) :=
  match Response.decode msgBuf with
  | none => none
  | some responseParsed =>
      if responseParsed.pubkey ≠ config.serverPubKey then
        none
      else if rsaVerify lib.wolf (typeAndData responseParsed.type responseParsed.data)
          responseParsed.signature responseParsed.pubkey = false then
        none
      else
        some (responseParsed.type, responseParsed.data)

end Messages

/-! Casting a ballot. -/

/-- A candidate, the number the user entered for it and the randomness of its
encryption. -/
structure Choice where
  candidateId : Int32
  choice : UInt64
  blinding : PaillierLib.Blinding
  deriving DecidableEq, Repr

section CastBallot

variable (lib : Libraries) (config : Config)

/-- The entry copies `P_CIPHERTEXT_MAX_LEN` bytes, whatever the key. -/
def encryptedBallotEntry (choice : Choice) : EncryptedBallotEntry where
  id := 0
  candidateId := choice.candidateId
  encryptedValue :=
    (paillierEnc choice.choice config.serverPaillierPubKey choice.blinding).take
      pCiphertextMaxLen

def encryptedBallot (eid : Int32) (choices : List Choice) : EncryptedBallot :=
  ⟨eid, choices.map (encryptedBallotEntry config)⟩

/-- The command that `castBallot` sends for the choices of an election. -/
def castBallot (eid : Int32) (choices : List Choice) : Option Bytes := do
  let ballotEnc ← encodeMessage lib.encodeFails (encryptedBallot config eid choices)
  sendCommand lib config .castBallot ballotEnc

end CastBallot

/-! Checking the encrypted side of a tally. -/

def candidateCiphertexts (candidateId : Int32) (cebs : List CastEncryptedBallot) :
    List Bytes :=
  cebs.flatMap fun ceb =>
    (ceb.encryptedBallot.encryptedBallotEntries.filter fun entry =>
      entry.candidateId = candidateId).map EncryptedBallotEntry.encryptedValue

section Audit

variable (lib : Libraries) (config : Config)

def fetchBallots (server : Bytes → Option Bytes) (electionId lastId : Int32) :
    Option (List CastEncryptedBallot) := do
  let reqEnc ← encodeMessage lib.encodeFails
    (⟨⟨lastId⟩, electionId⟩ : CastEncryptedBallotsRequest)
  let command ← sendCommand lib config .getEncryptedBallots reqEnc
  let msgBuf ← server command
  let (type, data) ← getResponse lib config msgBuf
  if type ≠ ResponseType.castEncryptedBallots.value then
    none
  else
    let cebs ← CastEncryptedBallots.decode data
    some cebs.castEncryptedBallots

/-- The loop of `verifyTallyEncryption`; `none` when a page fails or the fuel runs
out. -/
def collectCiphertexts (fetch : Int32 → Option (List CastEncryptedBallot))
    (candidateId : Int32) : (fuel : Nat) → (lastId : Int32) → Option (List Bytes)
  | 0, _ => none
  | fuel + 1, lastId => do
      let cebs ← fetch lastId
      match cebs.getLast? with
      | none => some (candidateCiphertexts candidateId cebs)
      | some ceb =>
          let rest ← collectCiphertexts fetch candidateId fuel ceb.id
          some (candidateCiphertexts candidateId cebs ++ rest)

def verifyTallyEncryption (server : Bytes → Option Bytes) (electionId candidateId : Int32)
    (encrypted : Bytes) (fuel : Nat) : Bool :=
  match collectCiphertexts (fetchBallots lib config server electionId) candidateId fuel 0 with
  | none => false
  | some ballotCiphertexts =>
      let trueEncrypted := paillierSum ballotCiphertexts config.serverPaillierPubKey
      encrypted.length = pCiphertextMaxLen &&
        trueEncrypted.take pCiphertextMaxLen = encrypted

end Audit

/-! What the pieces produce. -/

theorem sendCommand_eq_some {lib : Libraries} {config : Config} {commandType : CommandType}
    {data bytes : Bytes} (hsend : sendCommand lib config commandType data = some bytes) :
    ∃ signature,
      rsaSign lib.wolf (typeAndData commandType.value data) config.clientPrivKey
          rsaSignatureSize = some signature ∧
        bytes = encode (⟨commandType.value, data, config.clientPubKey, signature⟩ :
          Command) := by
  obtain ⟨signature, hsign, hencode⟩ := Option.bind_eq_some_iff.mp hsend
  exact ⟨signature, hsign, (encodeMessage_eq_some.mp hencode).2⟩

theorem encryptedBallotEntry_length (config : Config) (choice : Choice) :
    (encryptedBallotEntry config choice).encryptedValue.length = pCiphertextMaxLen := by
  have hbuffer : pCiphertextMaxLen ≤
      (paillierEnc choice.choice config.serverPaillierPubKey choice.blinding).length :=
    PaillierLib.le_paillierCiphertextToBytes_length _ _
  simp only [encryptedBallotEntry, List.length_take]
  omega

end VotingSystem.Client
