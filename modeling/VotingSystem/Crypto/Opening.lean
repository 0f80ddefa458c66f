import VotingSystem.Crypto.Combination
import VotingSystem.Crypto.TallySum
import VotingSystem.Number.Opening

namespace VotingSystem.Crypto

open VotingSystem.Data VotingSystem.Number PaillierLib

/-! What `paillierDec` and `paillierGetRand` say about a ciphertext: together
they open it, and encrypting again gives back the same bytes. -/

section Opening

variable {modulus : Modulus}

theorem decryptedPlaintext_of_import {ctext : Bytes} {message blind : Nat}
    (hblind : blind.Coprime modulus.n)
    (himport : mpzImport ctext = modulus.encrypt message blind) :
    decryptedPlaintext ctext (privHexP modulus) (privHexQ modulus) (pubHex modulus) =
      message % modulus.n := by
  simp only [decryptedPlaintext, paillierCiphertextFromBytes]
  rw [himport, libPaillierDec_encrypt modulus hblind]

/-- `tempB` of `paillierGetRand`. -/
theorem tempB_eq_totient (pub : PaillierPubkey) :
    let priv := paillierPrvkeyFromHex (privHexP modulus) (privHexQ modulus) pub
    (((priv.q : Int) - 1) * ((priv.p : Int) - 1)).toNat = modulus.totient := by
  simp only [paillierPrvkeyFromHex, completePrvkey, mpzSetStr_mpzGetStr]
  rw [prime_sub_one modulus.prime_p, prime_sub_one modulus.prime_q, ← Nat.cast_mul,
    Int.toNat_natCast, Modulus.totient, mul_comm]

/-- `tempA` of `paillierGetRand`: the factor `1 - pt * n` is negative unless the
plaintext is zero, but it does not matter modulo `n`. -/
theorem tempA_modEq (ct pt : Nat) :
    ((ct : Int) * (1 - (pt * modulus.n : Nat)) % (modulus.n ^ 2 : Nat)).toNat ≡ ct
      [MOD modulus.n] := by
  have hsquare : ((modulus.n ^ 2 : Nat) : Int) ≠ 0 := by
    exact_mod_cast (pow_pos modulus.n_pos 2).ne'
  rw [← Int.natCast_modEq_iff, Int.toNat_of_nonneg (Int.emod_nonneg _ hsquare)]
  have hdvd : (modulus.n : Int) ∣ (modulus.n ^ 2 : Nat) := by
    exact_mod_cast Dvd.intro_left modulus.n (by ring)
  calc
    (ct : Int) * (1 - (pt * modulus.n : Nat)) % (modulus.n ^ 2 : Nat)
        ≡ ct * (1 - (pt * modulus.n : Nat)) [ZMOD modulus.n] :=
        (Int.mod_modEq _ _).of_dvd hdvd
    _ = ct + modulus.n * (-(ct * pt)) := by
        push_cast
        ring
    _ ≡ ct [ZMOD modulus.n] := Int.modEq_add_fac_self

theorem paillierGetRand_of_import {ctext : Bytes} {message blind : Nat}
    (hblind : blind.Coprime modulus.n)
    (himport : mpzImport ctext = modulus.encrypt message blind) :
    paillierGetRand ctext (privHexP modulus) (privHexQ modulus) (pubHex modulus) =
      some (mpzExport (blind % modulus.n)) := by
  obtain ⟨inverse, hinverse⟩ := Option.isSome_iff_exists.mp
    (mpzInvert_isSome modulus.n_coprime_totient)
  have hspec : modulus.n * inverse ≡ 1 [MOD modulus.totient] := by
    rw [← Int.natCast_modEq_iff]
    simpa using mpzInvert_spec hinverse modulus.one_lt_totient
  have hroot :
      ∀ pt : Nat,
        mpzPowm
            ((modulus.encrypt message blind : Int) * (1 - (pt * modulus.n : Nat)) %
              (modulus.n ^ 2 : Nat)).toNat
            inverse modulus.n =
          blind % modulus.n := by
    intro pt
    have hzero := (tempA_modEq (modulus.encrypt message blind) pt).trans
      (modulus.encrypt_modEq_pow message blind)
    exact (hzero.pow inverse).trans (modulus.root_modEq hblind hspec)
  have htempB := @tempB_eq_totient modulus (paillierPubkeyFromHex (pubHex modulus))
  simp only at htempB
  simp only [paillierGetRand, paillierCiphertextFromBytes, himport, htempB,
    paillierPubkeyFromHex_n, paillierPubkeyFromHex_nSquared, hinverse, hroot,
    Option.bind_eq_bind, Option.bind_some]

theorem encodedPlaintext_paillierDec (ctext : Bytes) (privPHex privQHex pubHex : String) :
    encodedPlaintext (paillierDec ctext privPHex privQHex pubHex) =
      decryptedPlaintext ctext privPHex privQHex pubHex % 2 ^ 64 :=
  ((paillierDec_eq_iff _).mp rfl).symm

theorem paillierEnc_reproduces (hsize : modulus.n < 2 ^ 2048) {ctext : Bytes}
    {message blind : Nat} (hblind : blind.Coprime modulus.n)
    (himport : mpzImport ctext = modulus.encrypt message blind)
    (hsmall : message % modulus.n < 2 ^ 64) :
    paillierEnc
        (paillierDec ctext (privHexP modulus) (privHexQ modulus) (pubHex modulus))
        (pubHex modulus) (.custom (mpzExport (blind % modulus.n))) =
      ciphertextBytes (mpzImport ctext) := by
  have hfactor : Blinding.factor (.custom (mpzExport (blind % modulus.n))) =
      blind % modulus.n := by
    simp [Blinding.factor, mpzImport, mpzExport]
  rw [paillierEnc_eq hsize, encodedPlaintext_paillierDec,
    decryptedPlaintext_of_import hblind himport, Nat.mod_eq_of_lt hsmall, hfactor,
    modulus.encrypt_mod, himport]

/-- The randomness of a product of ciphertexts is the product of their
randomness. -/
theorem paillierGetRand_of_prod {ctext : Bytes} (values : List (Sealed modulus))
    (himport : mpzImport ctext =
      (values.map fun value => modulus.encrypt value.message value.blind).prod %
        modulus.n ^ 2) :
    paillierGetRand ctext (privHexP modulus) (privHexQ modulus) (pubHex modulus) =
      some (mpzExport ((values.map Sealed.blind).prod % modulus.n)) := by
  have hblinds : (values.map Sealed.blind).prod.Coprime modulus.n := by
    apply modulus.prod_coprime
    intro blind hblind
    obtain ⟨value, -, rfl⟩ := List.mem_map.mp hblind
    exact value.coprime
  have hproduct := @prod_encrypt_mod modulus
    (values.map fun value => (value.message, value.blind))
  simp only [List.map_map, Function.comp_def] at hproduct
  exact paillierGetRand_of_import hblinds (himport.trans hproduct)

theorem paillierGetRand_opens (modulus : Modulus) (hsize : modulus.n < 2 ^ 2048) :
    (∀ ctext : Bytes,
      mpzImport ctext < modulus.n ^ 2 →
      (mpzImport ctext).Coprime (modulus.n ^ 2) →
        ∃ r,
          paillierGetRand ctext (privHexP modulus) (privHexQ modulus) (pubHex modulus) =
            some (mpzExport r) ∧
          r.Coprime modulus.n ∧
          mpzImport ctext =
            (1 + modulus.n) ^
                decryptedPlaintext ctext (privHexP modulus) (privHexQ modulus)
                  (pubHex modulus) *
              r ^ modulus.n % modulus.n ^ 2 ∧
          (decryptedPlaintext ctext (privHexP modulus) (privHexQ modulus)
              (pubHex modulus) < 2 ^ 64 →
            paillierEnc
                (paillierDec ctext (privHexP modulus) (privHexQ modulus)
                  (pubHex modulus))
                (pubHex modulus) (.custom (mpzExport r)) =
              ciphertextBytes (mpzImport ctext))) ∧
    ∀ (ctext : Bytes) (values : List (Sealed modulus)),
      mpzImport ctext =
          (values.map fun value => modulus.encrypt value.message value.blind).prod %
            modulus.n ^ 2 →
        paillierGetRand ctext (privHexP modulus) (privHexQ modulus) (pubHex modulus) =
          some (mpzExport ((values.map Sealed.blind).prod % modulus.n)) := by
  constructor
  · intro ctext hlt hunit
    have hcoprime : (mpzImport ctext).Coprime modulus.n :=
      hunit.coprime_dvd_right (Dvd.intro_left modulus.n (by ring))
    obtain ⟨message, hmessage, blind, hblind, himport⟩ :=
      modulus.exists_opening hlt hcoprime
    have hplain := decryptedPlaintext_of_import hblind himport
    rw [Nat.mod_eq_of_lt hmessage] at hplain
    refine ⟨blind % modulus.n, paillierGetRand_of_import hblind himport, ?_, ?_, ?_⟩
    · exact mod_coprime hblind
    · have hreduced := modulus.encrypt_congr (Nat.ModEq.refl message)
        (Nat.mod_modEq blind modulus.n)
      rw [hplain, himport, ← hreduced, Modulus.encrypt]
    · intro hsmall
      rw [hplain, ← Nat.mod_eq_of_lt hmessage] at hsmall
      exact paillierEnc_reproduces hsize hblind himport hsmall
  · intro ctext values himport
    exact paillierGetRand_of_prod values himport

theorem mpzImport_mul {modulus : Modulus} (hsize : modulus.n < 2 ^ 2048)
    (left right : Sealed modulus) :
    mpzImport (left.mul right).ciphertext =
      ([left, right].map fun value => modulus.encrypt value.message value.blind).prod %
        modulus.n ^ 2 := by
  rw [Sealed.mpzImport_ciphertext hsize]
  simp [Sealed.mul, modulus.encrypt_mul]

def sealedThree : Sealed KeyPair.reference.modulus :=
  ⟨3, 2, KeyPair.reference.coprime_two⟩

def sealedFive : Sealed KeyPair.reference.modulus :=
  ⟨5, 3, KeyPair.reference.coprime_three⟩

theorem paillierGetRand_opens_product :
    (∃ r,
      paillierGetRand sealedThree.ciphertext (privHexP KeyPair.reference.modulus)
          (privHexQ KeyPair.reference.modulus) (pubHex KeyPair.reference.modulus) =
        some (mpzExport r) ∧
      r.Coprime KeyPair.reference.modulus.n ∧
      paillierEnc
          (paillierDec sealedThree.ciphertext (privHexP KeyPair.reference.modulus)
            (privHexQ KeyPair.reference.modulus) (pubHex KeyPair.reference.modulus))
          (pubHex KeyPair.reference.modulus) (.custom (mpzExport r)) =
        ciphertextBytes (mpzImport sealedThree.ciphertext)) ∧
    paillierGetRand (sealedThree.mul sealedFive).ciphertext
        (privHexP KeyPair.reference.modulus) (privHexQ KeyPair.reference.modulus)
        (pubHex KeyPair.reference.modulus) =
      some (mpzExport (([sealedThree, sealedFive].map Sealed.blind).prod %
        KeyPair.reference.modulus.n)) := by
  have himport := sealedThree.mpzImport_ciphertext KeyPair.reference.n_lt
  have hopens := paillierGetRand_opens KeyPair.reference.modulus KeyPair.reference.n_lt
  have hsmall : decryptedPlaintext sealedThree.ciphertext (privHexP KeyPair.reference.modulus)
      (privHexQ KeyPair.reference.modulus) (pubHex KeyPair.reference.modulus) < 2 ^ 64 := by
    rw [decryptedPlaintext_of_import sealedThree.coprime himport]
    exact (Nat.mod_le _ _).trans_lt (by decide : 3 < 2 ^ 64)
  constructor
  · obtain ⟨r, hrand, hcoprime, -, henc⟩ := hopens.1 sealedThree.ciphertext
      (by rw [himport]; exact KeyPair.reference.modulus.encrypt_lt _ _)
      (by
        rw [himport]
        exact (KeyPair.reference.modulus.encrypt_coprime _ sealedThree.coprime).pow_right 2)
    exact ⟨r, hrand, hcoprime, henc hsmall⟩
  · exact hopens.2 _ [sealedThree, sealedFive]
      (mpzImport_mul KeyPair.reference.n_lt sealedThree sealedFive)

theorem paillierDec_undoes_paillierEnc (modulus : Modulus) (hlarge : 2 ^ 64 < modulus.n)
    (hsize : modulus.n < 2 ^ 2048) (x : UInt64) (blinding : Blinding)
    (hblind : blinding.factor.Coprime modulus.n) :
    let pub := paillierPubkeyFromHex (pubHex modulus)
    let priv := paillierPrvkeyFromHex (privHexP modulus) (privHexQ modulus) pub
    priv.lambda = Nat.lcm (modulus.p - 1) (modulus.q - 1) ∧
      ((((1 + modulus.n) ^ priv.lambda % modulus.n ^ 2 : Nat) : Int) - 1) / modulus.n *
          priv.x ≡ 1 [ZMOD modulus.n] ∧
      (paillierEnc x (pubHex modulus) blinding).length = pCiphertextMaxLen ∧
      paillierDec (paillierEnc x (pubHex modulus) blinding) (privHexP modulus)
          (privHexQ modulus) (pubHex modulus) =
        x := by
  refine ⟨?_, ?_, ?_, paillierDec_paillierEnc hlarge hsize x hblind⟩
  · rw [paillierPrvkeyFromHex_lambda, Modulus.carmichael]
  · obtain ⟨inverse, hx, hinverse⟩ := paillierPrvkeyFromHex_x modulus
    have hquotient := quotient_eq_carmichael modulus
    rw [mpzPowm] at hquotient
    rw [paillierPrvkeyFromHex_lambda, hx, hquotient, ← Nat.cast_mul, ← Nat.cast_one,
      Int.natCast_modEq_iff]
    exact ((Nat.mod_modEq _ _).mul_right inverse).trans hinverse
  · rw [paillierEnc_eq hsize, ciphertextBytes_length]

theorem paillierDec_undoes_paillierEnc_custom :
    paillierDec
        (paillierEnc 258 (pubHex KeyPair.reference.modulus) (.custom [1]))
        (privHexP KeyPair.reference.modulus) (privHexQ KeyPair.reference.modulus)
        (pubHex KeyPair.reference.modulus) =
      258 := by
  have hone : mpzImport [1] = 1 := by decide
  have hblind : (Blinding.custom [1]).factor.Coprime KeyPair.reference.modulus.n := by
    rw [Blinding.factor, hone]
    exact Nat.coprime_one_left _
  exact (paillierDec_undoes_paillierEnc KeyPair.reference.modulus KeyPair.reference.n_large
    KeyPair.reference.n_lt 258 (.custom [1]) hblind).2.2.2

end Opening

end VotingSystem.Crypto
