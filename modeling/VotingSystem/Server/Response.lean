import VotingSystem.Crypto.Cryptography
import VotingSystem.Protos.RoundTrip

namespace VotingSystem.Server

open VotingSystem.Data VotingSystem.Crypto VotingSystem.Protos

structure Libraries where
  wolf : WolfCrypt
  encodeFails : Bytes → Bool

structure Config where
  pubKey : Bytes
  privKey : Bytes
  paillierPubKey : String
  paillierPrivKeyP : String
  paillierPrivKeyQ : String
  deriving DecidableEq, Repr

/-- The four bytes of an enumeration in memory, followed by the data. -/
def typeAndData (type : UInt32) (data : Bytes) : Bytes :=
  Bytes.ofNatLE 4 type.toNat ++ data

section Respond

variable (lib : Libraries) (config : Config)

/-- `none` stands for the pair `{false, {}}`. -/
def finishResponse (type : ResponseType) (data : Bytes) : Option Bytes := do
  let signature ← rsaSign lib.wolf (typeAndData type.value data) config.privKey
    rsaSignatureSize
  encodeMessage lib.encodeFails
    { type := type.value
      data := data
      pubkey := config.pubKey
      signature := signature : Response }

def errorData (error : String) : Bytes := error.toUTF8.toList ++ [0]

def errorResponse (error : String) : Option Bytes :=
  finishResponse lib config .error (errorData error)

end Respond

theorem finishResponse_decode {lib : Libraries} {config : Config} {type : ResponseType}
    {data bytes : Bytes} (hresponse : finishResponse lib config type data = some bytes) :
    ∃ signature, Response.decode bytes =
      some ⟨type.value, data, config.pubKey, signature⟩ := by
  obtain ⟨signature, _, hencode⟩ := Option.bind_eq_some_iff.mp hresponse
  obtain ⟨_, rfl⟩ := encodeMessage_eq_some.mp hencode
  exact ⟨signature, Response.decode_encode _⟩

theorem typeAndData_inj {type type' : UInt32} {data data' : Bytes}
    (heq : typeAndData type data = typeAndData type' data') :
    type = type' ∧ data = data' := by
  obtain ⟨htype, hdata⟩ := List.append_inj heq (by simp)
  refine ⟨?_, hdata⟩
  have hlt : ∀ type : UInt32, type.toNat < 256 ^ 4 := fun type => type.toNat_lt
  have hvalue := congrArg Bytes.littleEndian htype
  rw [Bytes.littleEndian_ofNatLE, Bytes.littleEndian_ofNatLE,
    Nat.mod_eq_of_lt (hlt type), Nat.mod_eq_of_lt (hlt type')] at hvalue
  exact UInt32.toNat.inj hvalue

end VotingSystem.Server
