import VotingSystem.Crypto.Signature

namespace VotingSystem.Crypto

open VotingSystem.Data

/-! Which messages a signature verifies for. -/

/-- The RSA operations and the padding behind a key pair: a signature is the private
operation on a padded payload, and the verification undoes it and checks the
padding. -/
structure RsaPadding {wolf : WolfCrypt} (key : RsaKeyPair wolf) where
  publicOp : Bytes → Option Bytes
  privateOp : Bytes → Bytes
  pad : Bytes → Bytes
  room : Nat
  inverse : ∀ signature block, publicOp signature = some block → privateOp block = signature
  signs : ∀ payload, payload.length ≤ room →
    wolf.rsaSSLSign payload rsaSignatureSize key.privateKey = some (privateOp (pad payload))
  checks : ∀ signature output,
    wolf.rsaSSLVerify signature sha256DigestSize key.publicKey = some output →
      ∃ payload, payload.length ≤ room ∧ publicOp signature = some (pad payload)

/-- What the private key signs, a digest or anything else. -/
def RsaKeyPair.Produced {wolf : WolfCrypt} (key : RsaKeyPair wolf) (signature : Bytes) : Prop :=
  ∃ payload, wolf.rsaSSLSign payload rsaSignatureSize key.privateKey = some signature

namespace RsaPadding

variable {wolf : WolfCrypt} {key : RsaKeyPair wolf} (padding : RsaPadding key)

include padding

theorem produced_of_payload {signature payload : Bytes}
    (hpayload : signedPayload? wolf signature key.pubKey = some payload) :
    key.Produced signature := by
  have hverify :
      wolf.rsaSSLVerify signature sha256DigestSize key.publicKey = some payload := by
    simpa [signedPayload?, key.decode_public] using hpayload
  obtain ⟨padded, hroom, hpublic⟩ := padding.checks signature payload hverify
  refine ⟨padded, ?_⟩
  rw [padding.signs padded hroom, padding.inverse signature _ hpublic]

theorem rsaVerify_of_not_produced {signature : Bytes} (hforeign : ¬ key.Produced signature)
    (msg : Bytes) : rsaVerify wolf msg signature key.pubKey = false := by
  rw [Bool.eq_false_iff, Ne, rsaVerify_iff]
  rintro ⟨payload, hpayload⟩
  exact hforeign (padding.produced_of_payload hpayload)

end RsaPadding

/-- A signature of the key verifies for every message, so it is judged rightly
exactly for messages of the same digest. -/
theorem rsaVerify_binds_iff {wolf : WolfCrypt} (key : RsaKeyPair wolf)
    (padding : RsaPadding key) :
    (∀ msg msg' : Bytes,
      ∃ signature, rsaSign wolf msg' key.privKey rsaSignatureSize = some signature ∧
        ((rsaVerify wolf msg signature key.pubKey = true ↔
            wolf.sha256 msg = wolf.sha256 msg') ↔
          wolf.sha256 msg = wolf.sha256 msg')) ∧
    ∀ msg signature : Bytes, ¬ key.Produced signature →
      rsaVerify wolf msg signature key.pubKey = false := by
  constructor
  · intro msg msg'
    obtain ⟨signature, hsign, -⟩ := key.rsaSign_payload msg'
    refine ⟨signature, hsign, ?_⟩
    rw [key.rsaVerify_of_rsaSign hsign msg]
    simp
  · intro msg signature hforeign
    exact padding.rsaVerify_of_not_produced hforeign msg

namespace Transparent

/-- The public operation strips the owner, and the padding fills up with zeros. -/
def padding (owner : UInt8) : RsaPadding (keyPair owner) where
  publicOp := fun signature =>
    if signature.head? = some owner ∧ signature.length = 256 then some signature.tail
    else none
  privateOp := fun block => owner :: block
  pad := fun payload => payload ++ List.replicate (255 - payload.length) 0
  room := 255
  inverse := by
    intro signature block hpublic
    split at hpublic
    · rename_i howner
      obtain rfl := Option.some.inj hpublic
      cases signature with
      | nil => simp at howner
      | cons byte rest => simpa using howner.1.symm
    · contradiction
  signs := by
    intro payload hroom
    have hfits : 256 ≤ rsaSignatureSize ∧ payload.length < 256 :=
      ⟨by decide, by omega⟩
    exact if_pos hfits
  checks := by
    intro signature output hverify
    have hsigned : verify signature sha256DigestSize (owner, 256) = some output := hverify
    simp only [verify] at hsigned
    split at hsigned
    · rename_i howner
      refine ⟨signature.tail, by simp [howner.2], ?_⟩
      simp [howner.1, howner.2]
    · contradiction

theorem not_produced_nil (owner : UInt8) : ¬ (keyPair owner).Produced [] := by
  rintro ⟨payload, hsign⟩
  have hsigned : sign payload rsaSignatureSize (owner, 256) = some [] := hsign
  simp only [sign] at hsigned
  split at hsigned <;> simp at hsigned

theorem rsaVerify_binds_iff_keyPair :
    (∃ sig, rsaSign wolf [1] (keyPair 0).privKey rsaSignatureSize = some sig ∧
      ((rsaVerify wolf [] sig (keyPair 0).pubKey = true ↔ sha256 [] = sha256 [1]) ↔
        sha256 [] = sha256 [1])) ∧
    rsaVerify wolf [1] [] (keyPair 0).pubKey = false :=
  ⟨(rsaVerify_binds_iff (keyPair 0) (padding 0)).1 [] [1],
    (rsaVerify_binds_iff (keyPair 0) (padding 0)).2 [1] [] (not_produced_nil 0)⟩

/-- The signature of one message verifies for another one. -/
theorem rsaVerify_other_message :
    ∃ sig, rsaSign wolf [1] (keyPair 0).privKey rsaSignatureSize = some sig ∧
      rsaVerify wolf [] sig (keyPair 0).pubKey = true ∧ sha256 [] ≠ sha256 [1] := by
  refine ⟨signature 0 256 [1], rsaSign_keyPair 0 [1], ?_, by decide⟩
  exact (keyPair 0).rsaVerify_of_rsaSign (rsaSign_keyPair 0 [1]) []

end Transparent

end VotingSystem.Crypto
