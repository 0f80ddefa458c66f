import Mathlib.Data.Nat.Digits.Defs
import Mathlib.Data.Int.GCD
import Mathlib.Data.Int.ModEq
import VotingSystem.Data.Bytes

namespace VotingSystem.Crypto

open VotingSystem.Data

/-! The GMP functions the Paillier library calls. `mpz_import` and `mpz_export`
are called with `order = 1` and `size = 1` throughout. -/

def mpzImport (bytes : Bytes) : Nat := Bytes.bigEndian bytes

def mpzExport (value : Nat) : Bytes := Bytes.minimalBE value

def mpzPowm (base exponent modulus : Nat) : Nat := base ^ exponent % modulus

/-- `none` when there is no inverse. -/
def mpzInvert (value : Int) (modulus : Nat) : Option Nat :=
  let residue := (value % modulus).toNat
  if residue.gcd modulus = 1 then
    some (residue.gcdA modulus % modulus).toNat
  else
    none

def mpzSizeinbase2 (value : Nat) : Nat := max 1 (Nat.size value)

def hexDigit (digit : Nat) : Char :=
  if digit < 10 then Char.ofNat (48 + digit) else Char.ofNat (87 + digit)

def hexValue? (char : Char) : Option Nat :=
  if '0' ≤ char ∧ char ≤ '9' then some (char.toNat - 48)
  else if 'a' ≤ char ∧ char ≤ 'f' then some (char.toNat - 87)
  else if 'A' ≤ char ∧ char ≤ 'F' then some (char.toNat - 55)
  else none

def mpzGetStr (value : Nat) : String :=
  if value = 0 then "0"
  else String.ofList ((Nat.digits 16 value).reverse.map hexDigit)

/-- `mpz_init_set_str` in base 16: white space is ignored, and a string that is
not a numeral leaves the value at zero. -/
def mpzSetStr (str : String) : Nat :=
  match (str.toList.filter fun char => !char.isWhitespace).mapM hexValue? with
  | some digits => digits.foldl (fun value digit => value * 16 + digit) 0
  | none => 0

theorem mpzInvert_spec {value : Int} {modulus inverse : Nat}
    (hinverse : mpzInvert value modulus = some inverse) (hmodulus : 1 < modulus) :
    value * inverse ≡ 1 [ZMOD modulus] := by
  unfold mpzInvert at hinverse
  simp only at hinverse
  split at hinverse
  · rename_i hgcd
    simp only [Option.some.injEq] at hinverse
    have hresidue : (((value % modulus).toNat : Nat) : Int) = value % modulus :=
      Int.toNat_of_nonneg (Int.emod_nonneg _ (by omega))
    have hcast : (inverse : Int) =
        Nat.gcdA (value % modulus).toNat modulus % modulus := by
      rw [← hinverse, Int.toNat_of_nonneg (Int.emod_nonneg _ (by omega))]
    have hbezout := Nat.gcd_eq_gcd_ab (value % modulus).toNat modulus
    rw [hgcd, hresidue] at hbezout
    calc
      value * inverse
          ≡ value % modulus * Nat.gcdA (value % modulus).toNat modulus
            [ZMOD modulus] := by
            rw [hcast]
            exact (Int.mod_modEq _ _).symm.mul (Int.mod_modEq _ _)
      _ ≡ value % modulus * Nat.gcdA (value % modulus).toNat modulus +
            modulus * Nat.gcdB (value % modulus).toNat modulus [ZMOD modulus] := by
            simp [Int.ModEq]
      _ = 1 := by simpa using hbezout.symm
  · contradiction

theorem mpzInvert_isSome {value modulus : Nat} (hcoprime : value.Coprime modulus) :
    (mpzInvert value modulus).isSome := by
  have hresidue : ((value : Int) % modulus).toNat = value % modulus := by
    rw [← Int.natCast_mod, Int.toNat_natCast]
  have hgcd : (value % modulus).gcd modulus = 1 := by
    rw [← Nat.gcd_rec, Nat.gcd_comm]
    exact hcoprime
  simp [mpzInvert, hresidue, hgcd]

theorem hexValue?_hexDigit {digit : Nat} (hdigit : digit < 16) :
    hexValue? (hexDigit digit) = some digit := by
  revert digit
  decide

theorem hexDigit_isWhitespace {digit : Nat} (hdigit : digit < 16) :
    (hexDigit digit).isWhitespace = false := by
  revert digit
  decide

@[simp] theorem mpzSetStr_mpzGetStr (value : Nat) :
    mpzSetStr (mpzGetStr value) = value := by
  unfold mpzGetStr
  split
  · rename_i hzero
    subst hzero
    decide
  · have hdigits : ∀ digit ∈ (Nat.digits 16 value).reverse, digit < 16 := by
      intro digit hdigit
      exact Nat.digits_lt_base (by omega) (List.mem_reverse.mp hdigit)
    generalize hlist : (Nat.digits 16 value).reverse = digits at hdigits
    have hfilter : (digits.map hexDigit).filter (fun char => !char.isWhitespace) =
        digits.map hexDigit := by
      rw [List.filter_eq_self]
      intro char hchar
      obtain ⟨digit, hdigit, rfl⟩ := List.mem_map.mp hchar
      simp [hexDigit_isWhitespace (hdigits digit hdigit)]
    have hread : (digits.map hexDigit).mapM hexValue? = some digits := by
      clear hfilter hlist
      induction digits with
      | nil => rfl
      | cons digit digits ih =>
          have htail := ih fun other hother => hdigits other (by simp [hother])
          simp [hexValue?_hexDigit (hdigits digit (by simp)), htail]
    have hvalue : digits.foldl (fun value digit => value * 16 + digit) 0 = value := by
      rw [← hlist, List.foldl_reverse]
      have hfold := Nat.ofDigits_eq_foldr (16 : Nat) (Nat.digits 16 value)
      rw [Nat.ofDigits_digits] at hfold
      conv_rhs => rw [hfold]
      congr 1
      funext digit rest
      simp
      omega
    simp only [mpzSetStr, String.toList_ofList, hfilter, hread, hvalue]

end VotingSystem.Crypto
