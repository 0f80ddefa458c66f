import VotingSystem.Crypto.Cryptography

namespace VotingSystem.Crypto

open VotingSystem.Data

/-- Two encoded keys that wolfSSL accepts as a pair: what one signs into a
signature buffer, the other recovers. -/
structure RsaKeyPair (wolf : WolfCrypt) where
  pubKey : Bytes
  privKey : Bytes
  publicKey : wolf.PublicKey
  privateKey : wolf.PrivateKey
  decode_public : wolf.rsaPublicKeyDecode pubKey = some publicKey
  decode_private : wolf.rsaPrivateKeyDecode privKey = some privateKey
  sign_verify : ∀ msg, ∃ signature,
    wolf.rsaSSLSign (wolf.sha256 msg) rsaSignatureSize privateKey = some signature ∧
      wolf.rsaSSLVerify signature sha256DigestSize publicKey = some (wolf.sha256 msg)

namespace RsaKeyPair

variable {wolf : WolfCrypt} (key : RsaKeyPair wolf)

theorem rsaSign_payload (msg : Bytes) :
    ∃ signature, rsaSign wolf msg key.privKey rsaSignatureSize = some signature ∧
      signedPayload? wolf signature key.pubKey = some (wolf.sha256 msg) := by
  obtain ⟨signature, hsign, hverify⟩ := key.sign_verify msg
  refine ⟨signature, ?_, ?_⟩
  · simpa [rsaSign, key.decode_private] using hsign
  · simpa [signedPayload?, key.decode_public] using hverify

/-- A signature verifies, and against every message. -/
theorem rsaVerify_of_rsaSign {msg signature : Bytes}
    (hsign : rsaSign wolf msg key.privKey rsaSignatureSize = some signature)
    (msg' : Bytes) : rsaVerify wolf msg' signature key.pubKey = true := by
  obtain ⟨signature', hsign', hpayload⟩ := key.rsaSign_payload msg
  obtain rfl : signature' = signature := by
    rw [hsign] at hsign'
    exact (Option.some.inj hsign').symm
  exact (rsaVerify_iff wolf msg' signature' key.pubKey).mpr ⟨_, hpayload⟩

end RsaKeyPair

/-! A signature scheme whose signatures show their owner and their payload. An
encoded key is the owner and the number of 32-byte blocks of the modulus. -/

namespace Transparent

def decodeKey : Bytes → Option (UInt8 × Nat)
  | owner :: blocks :: _ => some (owner, blocks.toNat * 32)
  | _ => none

def sha256 (msg : Bytes) : Bytes := Bytes.ofNatLE sha256DigestSize (Bytes.littleEndian msg)

def sign (digest : Bytes) (outLen : Nat) : UInt8 × Nat → Option Bytes
  | (owner, size) =>
      if size ≤ outLen ∧ digest.length < size then
        some (owner :: digest ++ List.replicate (size - 1 - digest.length) 0)
      else
        none

def verify (signature : Bytes) (outLen : Nat) : UInt8 × Nat → Option Bytes
  | (owner, size) =>
      if signature.head? = some owner ∧ signature.length = size then
        some (signature.tail.take outLen)
      else
        none

def wolf : WolfCrypt where
  PrivateKey := UInt8 × Nat
  PublicKey := UInt8 × Nat
  sha256 := sha256
  rsaPrivateKeyDecode := decodeKey
  rsaPublicKeyDecode := decodeKey
  rsaSSLSign := sign
  rsaSSLVerify := verify

@[simp] theorem sha256_length (msg : Bytes) : (sha256 msg).length = sha256DigestSize := by
  simp [sha256]

theorem sha256_head (byte : UInt8) (rest : Bytes) :
    (sha256 (byte :: rest)).head? = some byte := by
  have hbyte := byte.toNat_lt
  simp only [sha256, sha256DigestSize, Bytes.ofNatLE, List.head?_cons, Option.some.injEq,
    Bytes.littleEndian_cons]
  apply UInt8.toNat.inj
  rw [UInt8.toNat_ofNat']
  omega

def signature (owner : UInt8) (size : Nat) (msg : Bytes) : Bytes :=
  owner :: sha256 msg ++ List.replicate (size - 1 - sha256DigestSize) 0

theorem signature_length {size : Nat} (hsize : sha256DigestSize < size) (owner : UInt8)
    (msg : Bytes) : (signature owner size msg).length = size := by
  simp only [signature, List.cons_append, List.length_cons, List.length_append,
    sha256_length, List.length_replicate]
  omega

theorem sign_sha256 {size : Nat} (hsize : sha256DigestSize < size) (owner : UInt8)
    (outLen : Nat) (msg : Bytes) :
    sign (sha256 msg) outLen (owner, size) =
      if size ≤ outLen then some (signature owner size msg) else none := by
  simp only [sign, sha256_length, hsize, and_true, signature]

theorem sign_2048_bits (owner : UInt8) (msg : Bytes) :
    sign (sha256 msg) rsaSignatureSize (owner, 256) = some (signature owner 256 msg) := by
  rw [sign_sha256 (by decide)]
  rfl

theorem verify_signature {size : Nat} (hsize : sha256DigestSize < size) (owner : UInt8)
    (msg : Bytes) :
    verify (signature owner size msg) sha256DigestSize (owner, size) =
      some (sha256 msg) := by
  simp only [verify]
  rw [if_pos ⟨rfl, signature_length hsize owner msg⟩, signature, List.cons_append,
    List.tail_cons, List.take_left' (sha256_length msg)]

def keyPair (owner : UInt8) : RsaKeyPair wolf where
  pubKey := [owner, 8]
  privKey := [owner, 8]
  publicKey := (owner, 256)
  privateKey := (owner, 256)
  decode_public := rfl
  decode_private := rfl
  sign_verify := fun msg =>
    ⟨signature owner 256 msg, sign_2048_bits owner msg,
      @verify_signature 256 (by decide) owner msg⟩

/-- The signature of a 3072-bit key does not fit the buffer. -/
theorem rsaSign_3072_bits (owner : UInt8) (msg : Bytes) :
    rsaSign wolf msg [owner, 12] rsaSignatureSize = none := by
  have hsign := @sign_sha256 384 (by decide) owner rsaSignatureSize msg
  rw [if_neg (by decide)] at hsign
  exact hsign

theorem rsaSign_keyPair (owner : UInt8) (msg : Bytes) :
    rsaSign wolf msg (keyPair owner).privKey rsaSignatureSize =
      some (signature owner 256 msg) :=
  sign_2048_bits owner msg

theorem signedPayload?_signature (owner : UInt8) (msg : Bytes) :
    signedPayload? wolf (signature owner 256 msg) (keyPair owner).pubKey =
      some (sha256 msg) :=
  @verify_signature 256 (by decide) owner msg

end Transparent

end VotingSystem.Crypto
