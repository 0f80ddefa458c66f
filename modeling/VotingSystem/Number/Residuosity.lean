import Mathlib.Algebra.BigOperators.Group.List.Basic
import Mathlib.Data.Nat.ChineseRemainder
import Mathlib.Data.Nat.Prime.Basic
import Mathlib.FieldTheory.Finite.Basic
import Mathlib.Tactic.Ring

namespace VotingSystem.Number

/-! Powers modulo the square of `n`, and the additively homomorphic
encryption that rests on them. -/

section Powers

variable {n : Nat}

theorem one_add_mul_pow (n slope exponent : Nat) :
    (1 + slope * n) ^ exponent ≡ 1 + exponent * slope * n [MOD n ^ 2] := by
  induction exponent with
  | zero => simp [Nat.ModEq]
  | succ exponent ih =>
      rw [pow_succ]
      refine (ih.mul_right (1 + slope * n)).trans ?_
      have hexpand :
          (1 + exponent * slope * n) * (1 + slope * n) =
            1 + (exponent + 1) * slope * n + n ^ 2 * (exponent * slope * slope) := by
        ring
      rw [hexpand]
      exact Nat.add_mul_mod_self_left _ _ _

theorem pow_self_modEq_one {base : Nat} (hn : 1 < n) (hbase : base ≡ 1 [MOD n]) :
    base ^ n ≡ 1 [MOD n ^ 2] := by
  have hone : base % n = 1 := by
    rw [hbase, Nat.mod_eq_of_lt hn]
  have hform : base = 1 + base / n * n := by
    have := Nat.mod_add_div base n
    rw [hone] at this
    rw [mul_comm]
    exact this.symm
  rw [hform]
  refine (one_add_mul_pow n (base / n) n).trans ?_
  have hsquare : 1 + n * (base / n) * n = 1 + n ^ 2 * (base / n) := by ring
  rw [hsquare]
  exact Nat.add_mul_mod_self_left _ _ _

theorem mod_coprime {value : Nat} (hvalue : value.Coprime n) : (value % n).Coprime n := by
  rw [Nat.Coprime, ← Nat.gcd_rec, Nat.gcd_comm]
  exact hvalue

/-- The slope of a residue `1 + slope * n` modulo `n ^ 2`. -/
def slope (n residue : Nat) : Nat := (residue - 1) / n

theorem one_add_mul_mod (hn : 1 < n) (k : Nat) :
    (1 + k * n) % n ^ 2 = 1 + k % n * n := by
  have hlt : 1 + k % n * n < n ^ 2 := by
    have hk : k % n + 1 ≤ n := Nat.mod_lt k (by omega)
    have hmul : (k % n + 1) * n ≤ n * n := Nat.mul_le_mul_right n hk
    nlinarith
  have hform : 1 + k * n = 1 + k % n * n + n ^ 2 * (k / n) := by
    calc
      1 + k * n = 1 + (k % n + n * (k / n)) * n := by rw [Nat.mod_add_div]
      _ = 1 + k % n * n + n ^ 2 * (k / n) := by ring
  rw [hform, Nat.add_mul_mod_self_left, Nat.mod_eq_of_lt hlt]

theorem slope_one_add_mul_mod (hn : 1 < n) (k : Nat) :
    slope n ((1 + k * n) % n ^ 2) = k % n := by
  rw [one_add_mul_mod hn, slope, Nat.add_sub_cancel_left]
  exact Nat.mul_div_cancel _ (by omega)

end Powers

/-- A product of two primes whose order of units is invertible modulo it. -/
structure Modulus where
  p : Nat
  q : Nat
  prime_p : p.Prime
  prime_q : q.Prime
  distinct : p ≠ q
  coprime : (p * q).Coprime ((p - 1) * (q - 1))

namespace Modulus

variable (modulus : Modulus)

def n : Nat := modulus.p * modulus.q

def carmichael : Nat := Nat.lcm (modulus.p - 1) (modulus.q - 1)

theorem one_lt_n : 1 < modulus.n := by
  have hp := modulus.prime_p.two_le
  have hq := modulus.prime_q.two_le
  unfold n
  nlinarith

theorem n_pos : 0 < modulus.n := Nat.zero_lt_of_lt modulus.one_lt_n

theorem primes_coprime : modulus.p.Coprime modulus.q :=
  (Nat.coprime_primes modulus.prime_p modulus.prime_q).mpr modulus.distinct

theorem carmichael_coprime : modulus.carmichael.Coprime modulus.n := by
  have hdvd : modulus.carmichael ∣ (modulus.p - 1) * (modulus.q - 1) :=
    Nat.lcm_dvd (Nat.dvd_mul_right _ _) (Nat.dvd_mul_left _ _)
  exact Nat.Coprime.coprime_dvd_left hdvd modulus.coprime.symm

theorem pow_modEq_one_of_dvd {prime base exponent : Nat} (hprime : prime.Prime)
    (hbase : base.Coprime prime) (hdvd : prime - 1 ∣ exponent) :
    base ^ exponent ≡ 1 [MOD prime] := by
  obtain ⟨factor, rfl⟩ := hdvd
  have hfermat : base ^ (prime - 1) ≡ 1 [MOD prime] := by
    simpa [Nat.totient_prime hprime] using Nat.ModEq.pow_totient hbase
  simpa [pow_mul] using hfermat.pow factor

theorem pow_carmichael_modEq_one {base : Nat} (hbase : base.Coprime modulus.n) :
    base ^ modulus.carmichael ≡ 1 [MOD modulus.n] := by
  have hp : base.Coprime modulus.p := Nat.Coprime.coprime_mul_right_right hbase
  have hq : base.Coprime modulus.q := Nat.Coprime.coprime_mul_left_right hbase
  rw [n, ← Nat.modEq_and_modEq_iff_modEq_mul modulus.primes_coprime]
  exact ⟨pow_modEq_one_of_dvd modulus.prime_p hp (Nat.dvd_lcm_left _ _),
    pow_modEq_one_of_dvd modulus.prime_q hq (Nat.dvd_lcm_right _ _)⟩

/-! Encryption of `message` under the blinding factor `blind`. -/

def encrypt (message blind : Nat) : Nat :=
  (1 + modulus.n) ^ message * blind ^ modulus.n % modulus.n ^ 2

theorem encrypt_lt (message blind : Nat) :
    modulus.encrypt message blind < modulus.n ^ 2 :=
  Nat.mod_lt _ (pow_pos modulus.n_pos 2)

theorem encrypt_modEq (message blind : Nat) :
    modulus.encrypt message blind ≡
      (1 + modulus.n) ^ message * blind ^ modulus.n [MOD modulus.n ^ 2] :=
  Nat.mod_modEq _ _

theorem encrypt_mul (message message' blind blind' : Nat) :
    modulus.encrypt message blind * modulus.encrypt message' blind' %
        modulus.n ^ 2 =
      modulus.encrypt (message + message') (blind * blind') := by
  have hproduct := (modulus.encrypt_modEq message blind).mul
    (modulus.encrypt_modEq message' blind')
  rw [hproduct, encrypt]
  congr 1
  rw [pow_add, mul_pow]
  ring

theorem encrypt_zero_one : modulus.encrypt 0 1 = 1 := by
  have hlt : 1 < modulus.n ^ 2 := Nat.one_lt_pow (by omega) modulus.one_lt_n
  simp [encrypt, Nat.mod_eq_of_lt hlt]

/-- The Carmichael exponent removes the blinding factor and leaves the message
as a slope. -/
theorem encrypt_pow_carmichael {message blind : Nat}
    (hblind : blind.Coprime modulus.n) :
    modulus.encrypt message blind ^ modulus.carmichael % modulus.n ^ 2 =
      (1 + message * modulus.carmichael * modulus.n) % modulus.n ^ 2 := by
  have hkill : (blind ^ modulus.carmichael) ^ modulus.n ≡ 1 [MOD modulus.n ^ 2] :=
    pow_self_modEq_one modulus.one_lt_n (modulus.pow_carmichael_modEq_one hblind)
  have hmessage :
      (1 + modulus.n) ^ (message * modulus.carmichael) ≡
        1 + message * modulus.carmichael * modulus.n [MOD modulus.n ^ 2] := by
    simpa using one_add_mul_pow modulus.n 1 (message * modulus.carmichael)
  calc
    modulus.encrypt message blind ^ modulus.carmichael
        ≡ ((1 + modulus.n) ^ message * blind ^ modulus.n) ^ modulus.carmichael
          [MOD modulus.n ^ 2] := (modulus.encrypt_modEq message blind).pow _
    _ = (1 + modulus.n) ^ (message * modulus.carmichael) *
          (blind ^ modulus.carmichael) ^ modulus.n := by
        rw [mul_pow, ← pow_mul, ← pow_mul, ← pow_mul, mul_comm modulus.n]
    _ ≡ (1 + message * modulus.carmichael * modulus.n) * 1 [MOD modulus.n ^ 2] :=
        hmessage.mul hkill
    _ = 1 + message * modulus.carmichael * modulus.n := mul_one _

theorem slope_encrypt_pow {message blind : Nat}
    (hblind : blind.Coprime modulus.n) :
    slope modulus.n
        (modulus.encrypt message blind ^ modulus.carmichael % modulus.n ^ 2) =
      message * modulus.carmichael % modulus.n := by
  rw [modulus.encrypt_pow_carmichael hblind,
    slope_one_add_mul_mod modulus.one_lt_n]

theorem slope_mul_inverse {message blind inverse : Nat}
    (hblind : blind.Coprime modulus.n)
    (hinverse : modulus.carmichael * inverse ≡ 1 [MOD modulus.n]) :
    slope modulus.n
          (modulus.encrypt message blind ^ modulus.carmichael % modulus.n ^ 2) *
        inverse % modulus.n =
      message % modulus.n := by
  rw [modulus.slope_encrypt_pow hblind]
  have hreduce : message * modulus.carmichael % modulus.n * inverse ≡
      message * modulus.carmichael * inverse [MOD modulus.n] :=
    (Nat.mod_modEq _ _).mul_right _
  have hcancel : message * modulus.carmichael * inverse ≡ message * 1
      [MOD modulus.n] := by
    rw [mul_assoc]
    exact hinverse.mul_left message
  simpa [Nat.ModEq] using hreduce.trans hcancel

theorem foldl_encrypt (ballots : List (Nat × Nat)) (message blind : Nat) :
    (ballots.map fun ballot => modulus.encrypt ballot.1 ballot.2).foldl
        (fun sum ciphertext => sum * ciphertext % modulus.n ^ 2)
        (modulus.encrypt message blind) =
      modulus.encrypt (message + (ballots.map Prod.fst).sum)
        (blind * (ballots.map Prod.snd).prod) := by
  induction ballots generalizing message blind with
  | nil => simp
  | cons ballot ballots ih =>
      simp only [List.map_cons, List.foldl_cons, modulus.encrypt_mul, ih,
        List.sum_cons, List.prod_cons, add_assoc, mul_assoc]

theorem prod_coprime {blinds : List Nat}
    (hblinds : ∀ blind ∈ blinds, blind.Coprime modulus.n) :
    blinds.prod.Coprime modulus.n := by
  induction blinds with
  | nil => simp
  | cons blind blinds ih =>
      rw [List.prod_cons]
      exact Nat.Coprime.mul_left (hblinds blind (by simp))
        (ih fun other hother => hblinds other (by simp [hother]))

end Modulus

/-- A product that is large for one factor leaves the other one no room to be small. -/
theorem factor_ge_of_product {bound p q : Nat} (hq : q < 2 * bound)
    (hproduct : bound * (2 * bound) ≤ p * q) : bound ≤ p := by
  by_contra hsmall
  have hlt : p * q < bound * (2 * bound) := Nat.mul_lt_mul'' (by omega) hq
  omega

theorem coprime_of_same_length {p q : Nat} (bound : Nat) (hp : p.Prime) (hq : q.Prime)
    (hdistinct : p ≠ q) (hbound : 2 < bound) (hpLower : bound ≤ p) (hpUpper : p < 2 * bound)
    (hqLower : bound ≤ q) (hqUpper : q < 2 * bound) :
    (p * q).Coprime ((p - 1) * (q - 1)) := by
  have hself {r : Nat} (hr : r.Prime) : r.Coprime (r - 1) := by
    rw [hr.coprime_iff_not_dvd]
    exact Nat.not_dvd_of_pos_of_lt (by have := hr.two_le; omega)
      (by have := hr.two_le; omega)
  have hcross {r s : Nat} (hr : r.Prime) (hs : s.Prime) (hne : r ≠ s)
      (hrLower : bound ≤ r) (hsUpper : s < 2 * bound) : r.Coprime (s - 1) := by
    rw [hr.coprime_iff_not_dvd]
    intro hdvd
    obtain ⟨factor, hfactor⟩ := hdvd
    have hsTwo := hs.two_le
    have hrTwo := hr.two_le
    match factor, hfactor with
    | 0, hfactor => omega
    | 1, hfactor =>
        -- one of two consecutive numbers is even, and both exceed two
        have hsucc : s = r + 1 := by omega
        have hrOdd := hr.eq_two_or_odd
        have hsOdd := hs.eq_two_or_odd
        omega
    | factor + 2, hfactor =>
        have hlarge : 2 * r ≤ r * (factor + 2) := by
          rw [mul_comm 2 r]
          exact Nat.mul_le_mul_left r (by omega)
        omega
  exact Nat.Coprime.mul_left
    (Nat.Coprime.mul_right (hself hp)
      (hcross hp hq hdistinct hpLower hqUpper))
    (Nat.Coprime.mul_right (hcross hq hp hdistinct.symm hqLower hpUpper)
      (hself hq))

end VotingSystem.Number
