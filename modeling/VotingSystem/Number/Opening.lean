import Mathlib.NumberTheory.Basic
import VotingSystem.Number.Residuosity

namespace VotingSystem.Number

/-! Opening a ciphertext: every unit modulo the square of `n` is the encryption
of one message under one blinding factor, and both can be recovered. -/

theorem pow_self_modEq_square {n base base' : Nat} (hbase : base ≡ base' [MOD n]) :
    base ^ n ≡ base' ^ n [MOD n ^ 2] := by
  have hdvd : (n : Int) ∣ base' - base := Nat.modEq_iff_dvd.mp hbase
  have hpow := dvd_sub_pow_of_dvd_sub hdvd 1
  rw [Nat.modEq_iff_dvd]
  push_cast
  simpa using hpow

theorem mul_self_modEq_square {n factor factor' : Nat} (hfactor : factor ≡ factor' [MOD n]) :
    factor * n ≡ factor' * n [MOD n ^ 2] := by
  rw [pow_two]
  exact hfactor.mul_right' n

theorem modEq_of_modEq_square {n value value' : Nat} (hvalue : value ≡ value' [MOD n ^ 2]) :
    value ≡ value' [MOD n] :=
  hvalue.of_dvd (Dvd.intro_left n (by ring))

/-- An exponent congruent to one acts as one on an element of that order. -/
theorem pow_modEq_self {m base order exponent : Nat} (horder : 1 < order)
    (hexponent : exponent ≡ 1 [MOD order]) (hbase : base ^ order ≡ 1 [MOD m]) :
    base ^ exponent ≡ base [MOD m] := by
  have hpos : 1 ≤ exponent := by
    by_contra hzero
    have hexp : exponent = 0 := by omega
    rw [hexp, Nat.ModEq, Nat.zero_mod, Nat.mod_eq_of_lt horder] at hexponent
    omega
  obtain ⟨factor, hfactor⟩ := (Nat.modEq_iff_dvd' hpos).mp hexponent.symm
  have hsplit : exponent = 1 + order * factor := by omega
  rw [hsplit, pow_add, pow_one, pow_mul]
  simpa using (hbase.pow factor).mul_left base

namespace Modulus

variable (modulus : Modulus)

/-- The number of units modulo `n`. -/
def totient : Nat := (modulus.p - 1) * (modulus.q - 1)

theorem one_lt_totient : 1 < modulus.totient := by
  have hp := modulus.prime_p.two_le
  have hq := modulus.prime_q.two_le
  have hdistinct := modulus.distinct
  unfold totient
  rcases Nat.lt_or_ge modulus.p 3 with hsmall | hlarge
  · have hone : modulus.p - 1 = 1 := by omega
    rw [hone, one_mul]
    omega
  · have hle : (modulus.p - 1) * 1 ≤ (modulus.p - 1) * (modulus.q - 1) :=
      Nat.mul_le_mul_left _ (by omega)
    omega

theorem carmichael_dvd_totient : modulus.carmichael ∣ modulus.totient :=
  Nat.lcm_dvd (Nat.dvd_mul_right _ _) (Nat.dvd_mul_left _ _)

theorem n_coprime_totient : modulus.n.Coprime modulus.totient := modulus.coprime

theorem pow_totient_modEq_one {base : Nat} (hbase : base.Coprime modulus.n) :
    base ^ modulus.totient ≡ 1 [MOD modulus.n] := by
  obtain ⟨factor, hfactor⟩ := modulus.carmichael_dvd_totient
  rw [hfactor, pow_mul]
  simpa using (modulus.pow_carmichael_modEq_one hbase).pow factor

/-- Raising to the inverse of `n` modulo the number of units takes the `n`-th
root modulo `n`. -/
theorem root_modEq {base inverse : Nat} (hbase : base.Coprime modulus.n)
    (hinverse : modulus.n * inverse ≡ 1 [MOD modulus.totient]) :
    (base ^ modulus.n) ^ inverse ≡ base [MOD modulus.n] := by
  rw [← pow_mul]
  exact pow_modEq_self modulus.one_lt_totient hinverse (modulus.pow_totient_modEq_one hbase)

theorem encrypt_modEq_slope (message blind : Nat) :
    modulus.encrypt message blind ≡
      (1 + message * modulus.n) * blind ^ modulus.n [MOD modulus.n ^ 2] := by
  have hmessage := one_add_mul_pow modulus.n 1 message
  rw [one_mul, mul_one] at hmessage
  exact (modulus.encrypt_modEq message blind).trans (hmessage.mul_right _)

theorem encrypt_modEq_pow (message blind : Nat) :
    modulus.encrypt message blind ≡ blind ^ modulus.n [MOD modulus.n] := by
  have hslope := modEq_of_modEq_square (modulus.encrypt_modEq_slope message blind)
  have hone : 1 + message * modulus.n ≡ 1 [MOD modulus.n] := by simp [Nat.ModEq]
  simpa using hslope.trans (hone.mul_right (blind ^ modulus.n))

theorem encrypt_coprime (message : Nat) {blind : Nat} (hblind : blind.Coprime modulus.n) :
    (modulus.encrypt message blind).Coprime modulus.n := by
  rw [Nat.Coprime, (modulus.encrypt_modEq_pow message blind).gcd_eq]
  exact hblind.pow_left _

/-- A ciphertext depends on its message and its blinding factor modulo `n` only. -/
theorem encrypt_congr {message message' blind blind' : Nat}
    (hmessage : message ≡ message' [MOD modulus.n])
    (hblind : blind ≡ blind' [MOD modulus.n]) :
    modulus.encrypt message blind = modulus.encrypt message' blind' := by
  have hslope : 1 + message * modulus.n ≡ 1 + message' * modulus.n [MOD modulus.n ^ 2] :=
    (mul_self_modEq_square hmessage).add_left 1
  have hcongr :
      modulus.encrypt message blind ≡ modulus.encrypt message' blind' [MOD modulus.n ^ 2] :=
    calc
      modulus.encrypt message blind
          ≡ (1 + message * modulus.n) * blind ^ modulus.n [MOD modulus.n ^ 2] :=
          modulus.encrypt_modEq_slope message blind
      _ ≡ (1 + message' * modulus.n) * blind' ^ modulus.n [MOD modulus.n ^ 2] :=
          hslope.mul (pow_self_modEq_square hblind)
      _ ≡ modulus.encrypt message' blind' [MOD modulus.n ^ 2] :=
          (modulus.encrypt_modEq_slope message' blind').symm
  exact hcongr.eq_of_lt_of_lt (modulus.encrypt_lt _ _) (modulus.encrypt_lt _ _)

theorem encrypt_mod (message blind : Nat) :
    modulus.encrypt (message % modulus.n) (blind % modulus.n) =
      modulus.encrypt message blind :=
  modulus.encrypt_congr (Nat.mod_modEq _ _) (Nat.mod_modEq _ _)

theorem exists_carmichael_inverse :
    ∃ inverse, modulus.carmichael * inverse ≡ 1 [MOD modulus.n] := by
  obtain ⟨inverse, -, hinverse⟩ := Nat.exists_mul_mod_eq_one_of_coprime
    modulus.carmichael_coprime modulus.one_lt_n
  refine ⟨inverse, ?_⟩
  rw [Nat.ModEq, hinverse, Nat.mod_eq_of_lt modulus.one_lt_n]

theorem exists_totient_inverse :
    ∃ inverse, modulus.n * inverse ≡ 1 [MOD modulus.totient] := by
  obtain ⟨inverse, -, hinverse⟩ := Nat.exists_mul_mod_eq_one_of_coprime
    modulus.n_coprime_totient modulus.one_lt_totient
  refine ⟨inverse, ?_⟩
  rw [Nat.ModEq, hinverse, Nat.mod_eq_of_lt modulus.one_lt_totient]

/-! The other way round: a message and a blinding factor for a given unit. -/

/-- Taking the message out of a unit leaves a power that the Carmichael exponent
removes. -/
theorem exists_message {ctext : Nat} (hctext : ctext.Coprime modulus.n) :
    ∃ message < modulus.n,
      (ctext * (1 + (modulus.n - message) * modulus.n)) ^ modulus.carmichael ≡ 1
        [MOD modulus.n ^ 2] := by
  obtain ⟨inverse, hinverse⟩ := modulus.exists_carmichael_inverse
  obtain ⟨rise, hrise⟩ : ∃ rise, ctext ^ modulus.carmichael = 1 + modulus.n * rise := by
    have hpos : 1 ≤ ctext ^ modulus.carmichael := by
      apply Nat.one_le_iff_ne_zero.mpr
      apply pow_ne_zero
      rintro rfl
      have hone := (Nat.coprime_zero_left _).mp hctext
      have := modulus.one_lt_n
      omega
    obtain ⟨rise, hrise⟩ := (Nat.modEq_iff_dvd' hpos).mp
      (modulus.pow_carmichael_modEq_one hctext).symm
    exact ⟨rise, by omega⟩
  have hmessage : rise * inverse % modulus.n < modulus.n := Nat.mod_lt _ modulus.n_pos
  refine ⟨rise * inverse % modulus.n, hmessage, ?_⟩
  generalize hvalue : rise * inverse % modulus.n = message at hmessage
  have hcarried : modulus.carmichael * message ≡ rise [MOD modulus.n] :=
    calc
      modulus.carmichael * message
          ≡ modulus.carmichael * (rise * inverse) [MOD modulus.n] := by
          rw [← hvalue]
          exact (Nat.mod_modEq _ _).mul_left _
      _ = rise * (modulus.carmichael * inverse) := by ring
      _ ≡ rise * 1 [MOD modulus.n] := hinverse.mul_left rise
      _ = rise := mul_one rise
  have hcancel : rise + modulus.carmichael * (modulus.n - message) ≡ 0 [MOD modulus.n] :=
    calc
      rise + modulus.carmichael * (modulus.n - message)
          ≡ modulus.carmichael * message + modulus.carmichael * (modulus.n - message)
            [MOD modulus.n] := hcarried.symm.add_right _
      _ = modulus.n * modulus.carmichael := by
          rw [← mul_add, Nat.add_sub_cancel' hmessage.le, mul_comm]
      _ ≡ 0 [MOD modulus.n] := Nat.modEq_zero_iff_dvd.mpr (Nat.dvd_mul_right _ _)
  have hlift := (mul_self_modEq_square hcancel).add_left 1
  rw [zero_mul, add_zero] at hlift
  calc
    (ctext * (1 + (modulus.n - message) * modulus.n)) ^ modulus.carmichael
        = (1 + modulus.n * rise) *
            (1 + (modulus.n - message) * modulus.n) ^ modulus.carmichael := by
        rw [mul_pow, hrise]
    _ ≡ (1 + modulus.n * rise) *
          (1 + modulus.carmichael * (modulus.n - message) * modulus.n)
          [MOD modulus.n ^ 2] := (one_add_mul_pow _ _ _).mul_left _
    _ = 1 + (rise + modulus.carmichael * (modulus.n - message)) * modulus.n +
          modulus.n ^ 2 *
            (rise * (modulus.carmichael * (modulus.n - message))) := by ring
    _ ≡ 1 + (rise + modulus.carmichael * (modulus.n - message)) * modulus.n
          [MOD modulus.n ^ 2] := Nat.add_mul_mod_self_left _ _ _
    _ ≡ 1 [MOD modulus.n ^ 2] := hlift

/-- Every unit is an encryption. -/
theorem exists_opening {ctext : Nat} (hlt : ctext < modulus.n ^ 2)
    (hctext : ctext.Coprime modulus.n) :
    ∃ message < modulus.n, ∃ blind, blind.Coprime modulus.n ∧
      ctext = modulus.encrypt message blind := by
  obtain ⟨message, hmessage, hpower⟩ := modulus.exists_message hctext
  obtain ⟨inverse, hinverse⟩ := modulus.exists_totient_inverse
  generalize hrest : ctext * (1 + (modulus.n - message) * modulus.n) = rest at hpower
  have hunit : (1 + (modulus.n - message) * modulus.n).Coprime modulus.n := by
    simp [Nat.Coprime]
  have hblind : (rest ^ inverse).Coprime modulus.n := by
    rw [← hrest]
    exact (hctext.mul_left hunit).pow_left inverse
  have hroot : (rest ^ inverse) ^ modulus.n ≡ rest [MOD modulus.n ^ 2] := by
    have horder : rest ^ modulus.totient ≡ 1 [MOD modulus.n ^ 2] := by
      obtain ⟨factor, hfactor⟩ := modulus.carmichael_dvd_totient
      rw [hfactor, pow_mul]
      simpa using hpower.pow factor
    rw [← pow_mul, mul_comm]
    exact pow_modEq_self modulus.one_lt_totient hinverse horder
  refine ⟨message, hmessage, rest ^ inverse, hblind, ?_⟩
  have hcongr : modulus.encrypt message (rest ^ inverse) ≡ ctext [MOD modulus.n ^ 2] :=
    calc
      modulus.encrypt message (rest ^ inverse)
          ≡ (1 + message * modulus.n) * (rest ^ inverse) ^ modulus.n [MOD modulus.n ^ 2] :=
          modulus.encrypt_modEq_slope message _
      _ ≡ (1 + message * modulus.n) * rest [MOD modulus.n ^ 2] := hroot.mul_left _
      _ = ctext * (1 + (message + (modulus.n - message)) * modulus.n) +
            modulus.n ^ 2 * (ctext * message * (modulus.n - message)) := by
          rw [← hrest]
          ring
      _ ≡ ctext * (1 + (message + (modulus.n - message)) * modulus.n) [MOD modulus.n ^ 2] :=
          Nat.add_mul_mod_self_left _ _ _
      _ = ctext + modulus.n ^ 2 * ctext := by
          rw [Nat.add_sub_cancel' hmessage.le]
          ring
      _ ≡ ctext [MOD modulus.n ^ 2] := Nat.add_mul_mod_self_left _ _ _
  exact (hcongr.eq_of_lt_of_lt (modulus.encrypt_lt _ _) hlt).symm

end Modulus

end VotingSystem.Number
