import Mathlib.Tactic.Ring
import VotingSystem.Data.Bytes

namespace VotingSystem.Wire

open VotingSystem.Data

/-! Base-128 numbers: seven bits to a byte, lowest first, the high bit set on
every byte but the last. -/

/-- Spell `value` in at most `fuel + 1` bytes. -/
def varintDigits : (fuel value : Nat) → Bytes
  | 0, value => [UInt8.ofNat value]
  | fuel + 1, value =>
      if value < 128 then
        [UInt8.ofNat value]
      else
        UInt8.ofNat (value % 128 + 128) :: varintDigits fuel (value / 128)

def encodeVarint (value : Nat) : Bytes := varintDigits value value

def takeVarint : Bytes → Option (Bytes × Bytes)
  | [] => none
  | byte :: rest =>
      if byte.toNat < 128 then
        some ([byte], rest)
      else
        (takeVarint rest).map fun (digits, rest) => (byte :: digits, rest)

def varintValue : Bytes → Nat
  | [] => 0
  | byte :: rest => byte.toNat % 128 + 128 * varintValue rest

theorem takeVarint_varintDigits {fuel value : Nat}
    (hvalue : value < 128 ^ (fuel + 1)) (rest : Bytes) :
    takeVarint (varintDigits fuel value ++ rest) =
      some (varintDigits fuel value, rest) := by
  induction fuel generalizing value with
  | zero =>
      have hsmall : value % 256 < 128 := by omega
      simp [varintDigits, takeVarint, hsmall]
  | succ fuel ih =>
      unfold varintDigits
      split
      · rename_i hsmall
        have hmod : value % 256 < 128 := by omega
        simp [takeVarint, hmod]
      · have htail : value / 128 < 128 ^ (fuel + 1) := by
          rw [Nat.div_lt_iff_lt_mul (by omega), ← pow_succ]
          exact hvalue
        have hbyte : ¬(value % 128 + 128) % 256 < 128 := by omega
        simp [takeVarint, hbyte, ih htail]

theorem varintValue_varintDigits {fuel value : Nat}
    (hvalue : value < 128 ^ (fuel + 1)) :
    varintValue (varintDigits fuel value) = value := by
  induction fuel generalizing value with
  | zero =>
      simp only [varintDigits, varintValue, UInt8.toNat_ofNat']
      omega
  | succ fuel ih =>
      unfold varintDigits
      split
      · simp only [varintValue, UInt8.toNat_ofNat']
        omega
      · have htail : value / 128 < 128 ^ (fuel + 1) := by
          rw [Nat.div_lt_iff_lt_mul (by omega), ← pow_succ]
          exact hvalue
        simp only [varintValue, UInt8.toNat_ofNat', ih htail]
        omega

theorem lt_varint_capacity (value : Nat) : value < 128 ^ (value + 1) :=
  Nat.lt_of_lt_of_le (Nat.lt_pow_self (by omega))
    (Nat.pow_le_pow_right (by omega) (by omega))

@[simp] theorem takeVarint_encodeVarint (value : Nat) (rest : Bytes) :
    takeVarint (encodeVarint value ++ rest) = some (encodeVarint value, rest) :=
  takeVarint_varintDigits (lt_varint_capacity value) rest

@[simp] theorem varintValue_encodeVarint (value : Nat) :
    varintValue (encodeVarint value) = value :=
  varintValue_varintDigits (lt_varint_capacity value)

/-! The length of a spelling is fixed by the power of 128 its value reaches. -/

theorem varintDigits_length_le {fuel value width : Nat}
    (hvalue : value < 128 ^ (width + 1)) :
    (varintDigits fuel value).length ≤ width + 1 := by
  induction fuel generalizing value width with
  | zero => simp [varintDigits]
  | succ fuel ih =>
      unfold varintDigits
      split
      · simp
      · rename_i hlarge
        match width with
        | 0 => omega
        | width + 1 =>
            have htail : value / 128 < 128 ^ (width + 1) := by
              rw [Nat.div_lt_iff_lt_mul (by omega), ← pow_succ]
              exact hvalue
            have := ih htail
            simp only [List.length_cons]
            omega

theorem lt_varintDigits_length {fuel value width : Nat}
    (hfuel : value < 128 ^ (fuel + 1)) (hvalue : 128 ^ width ≤ value) :
    width < (varintDigits fuel value).length := by
  induction fuel generalizing value width with
  | zero =>
      match width with
      | 0 => simp [varintDigits]
      | width + 1 =>
          have hpow : 128 ^ 1 ≤ 128 ^ (width + 1) :=
            Nat.pow_le_pow_right (by omega) (by omega)
          omega
  | succ fuel ih =>
      unfold varintDigits
      match width with
      | 0 => split <;> simp
      | width + 1 =>
          have hpow : 128 ^ (width + 1) = 128 * 128 ^ width := pow_succ' _ _
          have hone : 1 ≤ 128 ^ width := Nat.one_le_pow _ _ (by omega)
          rw [if_neg (by omega)]
          have htail : 128 ^ width ≤ value / 128 := by omega
          have hfuel' : value / 128 < 128 ^ (fuel + 1) := by
            rw [Nat.div_lt_iff_lt_mul (by omega), ← pow_succ]
            exact hfuel
          have := ih hfuel' htail
          simp only [List.length_cons]
          omega

theorem encodeVarint_length_eq {value width : Nat}
    (hlower : width = 0 ∨ 128 ^ width ≤ value) (hupper : value < 128 ^ (width + 1)) :
    (encodeVarint value).length = width + 1 := by
  have hle : (encodeVarint value).length ≤ width + 1 := varintDigits_length_le hupper
  rcases hlower with rfl | hlower
  · have hpos : 0 < (encodeVarint value).length := by
      unfold encodeVarint
      cases value with
      | zero => simp [varintDigits]
      | succ value => unfold varintDigits; split <;> simp
    omega
  · have hlt : width < (encodeVarint value).length :=
      lt_varintDigits_length (lt_varint_capacity value) hlower
    omega

theorem encodeVarint_length_le {value width : Nat}
    (hupper : value < 128 ^ (width + 1)) : (encodeVarint value).length ≤ width + 1 :=
  varintDigits_length_le hupper

theorem encodeVarint_length_pos (value : Nat) : 0 < (encodeVarint value).length := by
  by_cases hsmall : value < 128
  · rw [encodeVarint_length_eq (Or.inl rfl) hsmall]
    omega
  · have hlower : 128 ^ 1 ≤ value := by omega
    exact Nat.zero_lt_of_lt (lt_varintDigits_length (lt_varint_capacity value) hlower)

end VotingSystem.Wire
