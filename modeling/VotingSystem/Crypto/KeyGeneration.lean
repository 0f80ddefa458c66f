import VotingSystem.Crypto.Opening

namespace VotingSystem.Crypto

open VotingSystem.Data VotingSystem.Number PaillierLib

/-! Keys as `paillierKeygen` makes them. The test of the highest bit makes the primes so
much alike in size that neither divides the other one less one. -/

/-- Turns that fail the test draw again. -/
theorem paillierKeygen_append {bits : Nat} {failed : List (Nat × Nat)}
    (hfailed : ∀ draw ∈ failed, (draw.1 * draw.2).testBit (bits - 1) = false)
    (draws : List (Nat × Nat)) :
    PaillierLib.paillierKeygen bits (failed ++ draws) =
      PaillierLib.paillierKeygen bits draws := by
  induction failed with
  | nil => rfl
  | cons draw failed ih =>
      have hfirst := hfailed draw List.mem_cons_self
      have hrest := ih fun other hother => hfailed other (List.mem_cons_of_mem _ hother)
      simp only [List.cons_append, PaillierLib.paillierKeygen, hfirst, Bool.false_eq_true,
        if_false, hrest]

theorem generated_coprime {bits p q : Nat} (heven : Even bits) (hbits : 16 ≤ bits)
    (hp : p.Prime) (hq : q.Prime) (hdistinct : p ≠ q) (hpLt : p < 2 ^ (bits / 2))
    (hqLt : q < 2 ^ (bits / 2)) (htest : (p * q).testBit (bits - 1) = true) :
    (p * q).Coprime ((p - 1) * (q - 1)) := by
  obtain ⟨half, hhalf⟩ : ∃ half, bits / 2 = half + 1 := ⟨bits / 2 - 1, by omega⟩
  have hbit : bits - 1 = 2 * half + 1 := by
    obtain ⟨double, hdouble⟩ := heven
    omega
  have hdouble : 2 ^ (half + 1) = 2 * 2 ^ half := by rw [pow_succ, mul_comm]
  rw [hhalf, hdouble] at hpLt hqLt
  have hproduct : 2 ^ half * (2 * 2 ^ half) ≤ p * q := by
    calc
      2 ^ half * (2 * 2 ^ half) = 2 ^ (bits - 1) := by
        rw [hbit, ← hdouble, ← pow_add]
        congr 1
        omega
      _ ≤ p * q := Nat.ge_two_pow_of_testBit htest
  have hpGe : 2 ^ half ≤ p := factor_ge_of_product hqLt hproduct
  have hqGe : 2 ^ half ≤ q := factor_ge_of_product hpLt (hproduct.trans_eq (mul_comm p q))
  have hsize : 2 ^ 7 ≤ 2 ^ half := Nat.pow_le_pow_right (by omega) (by omega)
  exact coprime_of_same_length (2 ^ half) hp hq hdistinct (by omega) hpGe hpLt hqGe hqLt

section Generated

variable (modulus : Modulus)

/-- The key of the turn that passes the test. -/
theorem paillierKeygen_eq {bits : Nat} (htest : modulus.n.testBit (bits - 1) = true)
    (later : List (Nat × Nat)) :
    PaillierLib.paillierKeygen bits ((modulus.p, modulus.q) :: later) =
      some (completePubkey bits modulus.n,
        completePrvkey modulus.carmichael modulus.p modulus.q
          (completePubkey bits modulus.n)) := by
  have hproduct : (modulus.p * modulus.q).testBit (bits - 1) = true := htest
  rw [PaillierLib.paillierKeygen, lambda_eq_carmichael]
  simp only [hproduct, if_true]
  rfl

/-- `complete_prvkey` inverts `L((1 + n) ^ lambda)`. -/
theorem completePrvkey_inverse (bits : Nat) :
    ∃ inverse : Nat,
      mpzInvert (((mpzPowm (completePubkey bits modulus.n).nPlusone modulus.carmichael
          (completePubkey bits modulus.n).nSquared : Int) - 1) / modulus.n) modulus.n =
        some inverse ∧
      (completePrvkey modulus.carmichael modulus.p modulus.q
        (completePubkey bits modulus.n)).x = inverse := by
  have hplusone : (completePubkey bits modulus.n).nPlusone = 1 + modulus.n := by
    rw [completePubkey, Nat.add_comm]
  have hsquared : (completePubkey bits modulus.n).nSquared = modulus.n ^ 2 := by
    rw [completePubkey, pow_two]
  have hn : (completePubkey bits modulus.n).n = modulus.n := rfl
  obtain ⟨inverse, hinverse⟩ := Option.isSome_iff_exists.mp
    (mpzInvert_isSome (mod_coprime modulus.carmichael_coprime))
  refine ⟨inverse, ?_, ?_⟩
  · rw [hplusone, hsquared, quotient_eq_carmichael, hinverse]
  · simp only [completePrvkey, hplusone, hsquared, hn, quotient_eq_carmichael, hinverse]

/-- `N` has an inverse modulo the number of units, whatever the ciphertext. -/
theorem paillierGetRand_isSome (ctext : Bytes) :
    (paillierGetRand ctext (privHexP modulus) (privHexQ modulus)
      (pubHex modulus)).isSome = true := by
  obtain ⟨inverse, hinverse⟩ := Option.isSome_iff_exists.mp
    (mpzInvert_isSome modulus.n_coprime_totient)
  have htempB := @tempB_eq_totient modulus (paillierPubkeyFromHex (pubHex modulus))
  simp only at htempB
  simp only [paillierGetRand, htempB, paillierPubkeyFromHex_n, hinverse, Option.bind_eq_bind,
    Option.bind_some, Option.isSome_some]

/-- The modulus is all that the private key takes from the public one. -/
theorem paillierPrvkeyFromHex_eq (bits : Nat) :
    paillierPrvkeyFromHex (privHexP modulus) (privHexQ modulus)
        (paillierPubkeyFromHex (pubHex modulus)) =
      completePrvkey modulus.carmichael modulus.p modulus.q
        (completePubkey bits modulus.n) := by
  simp only [paillierPrvkeyFromHex, paillierPubkeyFromHex, mpzSetStr_mpzGetStr,
    lambda_eq_carmichael]
  rfl

end Generated

theorem paillierKeygen_openable {bits p q : Nat} (heven : Even bits) (hbits : 16 ≤ bits)
    (hp : p.Prime) (hq : q.Prime) (hdistinct : p ≠ q) (hpLt : p < 2 ^ (bits / 2))
    (hqLt : q < 2 ^ (bits / 2)) (htest : (p * q).testBit (bits - 1) = true)
    {failed : List (Nat × Nat)}
    (hfailed : ∀ draw ∈ failed, (draw.1 * draw.2).testBit (bits - 1) = false)
    (later : List (Nat × Nat)) :
    (p * q).Coprime ((p - 1) * (q - 1)) ∧
      ∃ pub prv privHexP privHexQ pubHex,
        PaillierLib.paillierKeygen bits (failed ++ (p, q) :: later) = some (pub, prv) ∧
        paillierKeygen bits (failed ++ (p, q) :: later) = some (privHexP, privHexQ, pubHex) ∧
        (∃ inverse : Nat,
          mpzInvert (((mpzPowm pub.nPlusone prv.lambda pub.nSquared : Int) - 1) / pub.n)
            pub.n = some inverse ∧ prv.x = inverse) ∧
        (∀ ctext, (paillierGetRand ctext privHexP privHexQ pubHex).isSome = true) ∧
        (paillierPrvkeyFromHex privHexP privHexQ (paillierPubkeyFromHex pubHex)).lambda =
          prv.lambda ∧
        (paillierPrvkeyFromHex privHexP privHexQ (paillierPubkeyFromHex pubHex)).x =
          prv.x := by
  have hcoprime := generated_coprime heven hbits hp hq hdistinct hpLt hqLt htest
  let modulus : Modulus := ⟨p, q, hp, hq, hdistinct, hcoprime⟩
  have hkeygen : PaillierLib.paillierKeygen bits (failed ++ (p, q) :: later) = _ :=
    (paillierKeygen_append hfailed _).trans (paillierKeygen_eq modulus htest later)
  have hrebuilt := paillierPrvkeyFromHex_eq modulus bits
  refine ⟨hcoprime, _, _, privHexP modulus, privHexQ modulus, pubHex modulus, hkeygen, ?_,
    completePrvkey_inverse modulus bits, paillierGetRand_isSome modulus, ?_, ?_⟩
  · rw [paillierKeygen, hkeygen]
    rfl
  · rw [hrebuilt]
  · rw [hrebuilt]

theorem paillierKeygen_openable_16_bits :
    (251 * 241 : Nat).Coprime ((251 - 1) * (241 - 1)) ∧
      ∃ privHexP privHexQ pubHex,
        paillierKeygen 16 [(2, 3), (251, 241)] = some (privHexP, privHexQ, pubHex) ∧
        ∀ ctext, (paillierGetRand ctext privHexP privHexQ pubHex).isSome = true := by
  obtain ⟨hcoprime, _, _, privHexP, privHexQ, pubHex, _, hkeygen, _, hrand, _⟩ :=
    @paillierKeygen_openable 16 251 241 (by decide) le_rfl (by norm_num) (by norm_num)
      (by decide) (by norm_num) (by norm_num) (by decide) [(2, 3)] (by decide) []
  exact ⟨hcoprime, privHexP, privHexQ, pubHex, hkeygen, hrand⟩

end VotingSystem.Crypto
