import Mathlib.NumberTheory.LucasPrimality

namespace VotingSystem.Number

/-! Primality certificates for numbers `k * 2 ^ m + 1` with a prime `k`. -/

def squareTimes (m base : Nat) : (count : Nat) → Nat
  | 0 => base % m
  | count + 1 => squareTimes m (base * base % m) count

theorem squareTimes_eq (m base count : Nat) :
    squareTimes m base count = base ^ 2 ^ count % m := by
  induction count generalizing base with
  | zero => simp [squareTimes]
  | succ count ih =>
      rw [squareTimes, ih, ← Nat.pow_mod, pow_succ', pow_mul, pow_two]

theorem squareTimes_cast (m base count : Nat) :
    ((squareTimes m base count : Nat) : ZMod m) = (base : ZMod m) ^ 2 ^ count := by
  rw [squareTimes_eq, ZMod.natCast_mod, Nat.cast_pow]

/-- `base` generates the units: it has half order minus one, and the power that
omits the prime `k` is not one. -/
structure ProthCertificate (k m base : Nat) : Prop where
  odd_part_prime : k.Prime
  half : squareTimes (k * 2 ^ (m + 1) + 1) (base ^ k) m = k * 2 ^ (m + 1)
  cofactor : squareTimes (k * 2 ^ (m + 1) + 1) base (m + 1) ≠ 1

theorem ProthCertificate.prime {k m base : Nat}
    (certificate : ProthCertificate k m base) :
    (k * 2 ^ (m + 1) + 1).Prime := by
  have hk := certificate.odd_part_prime.two_le
  have hpow : 1 ≤ 2 ^ (m + 1) := Nat.one_le_two_pow
  have hhalf := certificate.half
  have hcofactor := certificate.cofactor
  generalize hp : k * 2 ^ (m + 1) + 1 = p at hhalf hcofactor ⊢
  have hlarge : 2 < p := by
    have := Nat.mul_le_mul hk hpow
    omega
  have hpred : p - 1 = k * 2 ^ (m + 1) := by omega
  have : Fact (2 < p) := ⟨hlarge⟩
  have hminus : (base : ZMod p) ^ (k * 2 ^ m) = -1 := by
    have hcast := squareTimes_cast p (base ^ k) m
    rw [hhalf, ← hpred, Nat.cast_sub (by omega), ZMod.natCast_self,
      Nat.cast_pow, ← pow_mul] at hcast
    simpa using hcast.symm
  apply lucas_primality p (base : ZMod p)
  · rw [hpred, pow_succ, ← mul_assoc, pow_mul, hminus]
    exact neg_one_sq
  · intro r hr hdvd
    rw [hpred] at hdvd ⊢
    rcases hr.dvd_mul.mp hdvd with hdvd | hdvd
    · obtain rfl := (Nat.prime_dvd_prime_iff_eq hr
        certificate.odd_part_prime).mp hdvd
      rw [Nat.mul_div_cancel_left _ (by omega), ← squareTimes_cast]
      intro hone
      have hmod : squareTimes p base (m + 1) % p = 1 % p := by
        exact (ZMod.natCast_eq_natCast_iff' _ _ _).mp (by simpa using hone)
      rw [squareTimes_eq, Nat.mod_mod, Nat.mod_eq_of_lt (by omega : 1 < p),
        ← squareTimes_eq] at hmod
      exact hcofactor hmod
    · obtain rfl := (Nat.prime_dvd_prime_iff_eq hr Nat.prime_two).mp
        (hr.dvd_of_dvd_pow hdvd)
      have hdiv : k * 2 ^ (m + 1) / 2 = k * 2 ^ m := by
        rw [pow_succ, ← mul_assoc, Nat.mul_div_cancel _ (by omega)]
      rw [hdiv, hminus]
      exact ZMod.neg_one_ne_one

end VotingSystem.Number
