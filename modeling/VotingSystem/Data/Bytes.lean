import Mathlib.Data.Nat.Size
import Mathlib.Tactic.Ring
import Mathlib.Tactic.Positivity

namespace VotingSystem.Data

/-! Byte strings and the numbers they spell in either byte order. -/

abbrev Bytes := List UInt8

namespace Bytes

def littleEndian : Bytes → Nat
  | [] => 0
  | byte :: rest => byte.toNat + 256 * littleEndian rest

def bigEndian (bytes : Bytes) : Nat := littleEndian bytes.reverse

/-- The low `width` bytes of a number, least significant byte first. -/
def ofNatLE : (width value : Nat) → Bytes
  | 0, _ => []
  | width + 1, value => UInt8.ofNat value :: ofNatLE width (value / 256)

/-- The number of bytes without a leading zero byte; zero needs none. -/
def byteCount (value : Nat) : Nat := (Nat.size value + 7) / 8

def minimalBE (value : Nat) : Bytes := (ofNatLE (byteCount value) value).reverse

@[simp] theorem littleEndian_nil : littleEndian [] = 0 := rfl

@[simp] theorem littleEndian_cons (byte : UInt8) (rest : Bytes) :
    littleEndian (byte :: rest) = byte.toNat + 256 * littleEndian rest := rfl

theorem littleEndian_append (low high : Bytes) :
    littleEndian (low ++ high) =
      littleEndian low + 256 ^ low.length * littleEndian high := by
  induction low with
  | nil => simp
  | cons byte rest ih =>
      simp only [List.cons_append, littleEndian_cons, ih, List.length_cons]
      ring

theorem littleEndian_lt (bytes : Bytes) :
    littleEndian bytes < 256 ^ bytes.length := by
  induction bytes with
  | nil => simp
  | cons byte rest ih =>
      have hbyte : byte.toNat < 256 := byte.toNat_lt
      simp only [littleEndian_cons, List.length_cons, pow_succ]
      omega

@[simp] theorem littleEndian_replicate_zero (count : Nat) :
    littleEndian (List.replicate count 0) = 0 := by
  induction count with
  | zero => rfl
  | succ count ih => simp [List.replicate_succ, ih]

@[simp] theorem ofNatLE_length (width value : Nat) :
    (ofNatLE width value).length = width := by
  induction width generalizing value with
  | zero => rfl
  | succ width ih => simp [ofNatLE, ih]

theorem littleEndian_ofNatLE (width value : Nat) :
    littleEndian (ofNatLE width value) = value % 256 ^ width := by
  induction width generalizing value with
  | zero => simp [ofNatLE, Nat.mod_one]
  | succ width ih =>
      simp only [ofNatLE, littleEndian_cons, ih, UInt8.toNat_ofNat']
      exact (Nat.mod_mul (a := 256)).symm.trans (by rw [pow_succ'])

theorem ofNatLE_littleEndian (bytes : Bytes) :
    ofNatLE bytes.length (littleEndian bytes) = bytes := by
  induction bytes with
  | nil => rfl
  | cons byte rest ih =>
      have hbyte : byte.toNat < 256 := byte.toNat_lt
      have hdiv : (byte.toNat + 256 * littleEndian rest) / 256 =
          littleEndian rest := by omega
      simp only [List.length_cons, ofNatLE, littleEndian_cons, hdiv, ih]
      congr 1
      apply UInt8.toNat.inj
      rw [UInt8.toNat_ofNat']
      omega

theorem ofNatLE_add (low high value : Nat) :
    ofNatLE (low + high) value =
      ofNatLE low value ++ ofNatLE high (value / 256 ^ low) := by
  induction low generalizing value with
  | zero => simp [ofNatLE]
  | succ low ih =>
      rw [Nat.succ_add_eq_add_succ, Nat.add_succ]
      simp only [ofNatLE, ih, List.cons_append, Nat.div_div_eq_div_mul, pow_succ']

@[simp] theorem ofNatLE_zero (width : Nat) :
    ofNatLE width 0 = List.replicate width 0 := by
  induction width with
  | zero => rfl
  | succ width ih => simp [ofNatLE, ih, List.replicate_succ]

theorem ofNatLE_of_lt {low value : Nat} (high : Nat) (hvalue : value < 256 ^ low) :
    ofNatLE (low + high) value = ofNatLE low value ++ List.replicate high 0 := by
  rw [ofNatLE_add, Nat.div_eq_of_lt hvalue, ofNatLE_zero]

theorem bigEndian_append (high low : Bytes) :
    bigEndian (high ++ low) =
      256 ^ low.length * bigEndian high + bigEndian low := by
  simp only [bigEndian, List.reverse_append, littleEndian_append,
    List.length_reverse]
  ring

theorem bigEndian_reverse (bytes : Bytes) :
    bigEndian bytes.reverse = littleEndian bytes := by
  simp [bigEndian]

/-! Lengths of the shortest spelling. -/

theorem byteCount_le_iff {value width : Nat} :
    byteCount value ≤ width ↔ value < 256 ^ width := by
  have hpow : (256 : Nat) ^ width = 2 ^ (8 * width) := by
    rw [pow_mul]
    norm_num
  rw [hpow, ← Nat.size_le, byteCount]
  omega

theorem lt_pow_byteCount (value : Nat) : value < 256 ^ byteCount value :=
  byteCount_le_iff.mp le_rfl

@[simp] theorem minimalBE_length (value : Nat) :
    (minimalBE value).length = byteCount value := by
  simp [minimalBE]

@[simp] theorem bigEndian_minimalBE (value : Nat) :
    bigEndian (minimalBE value) = value := by
  rw [minimalBE, bigEndian_reverse, littleEndian_ofNatLE]
  exact Nat.mod_eq_of_lt (lt_pow_byteCount value)

theorem zeros_append_minimalBE {value width : Nat} (hvalue : value < 256 ^ width) :
    List.replicate (width - byteCount value) 0 ++ minimalBE value =
      (ofNatLE width value).reverse := by
  have hcount : byteCount value ≤ width := byteCount_le_iff.mpr hvalue
  obtain ⟨high, rfl⟩ := Nat.exists_eq_add_of_le hcount
  rw [ofNatLE_of_lt high (lt_pow_byteCount value)]
  simp [minimalBE]

theorem drop_minimalBE {value width : Nat} (hcount : width ≤ byteCount value) :
    (minimalBE value).drop (byteCount value - width) =
      (ofNatLE width value).reverse := by
  obtain ⟨high, hhigh⟩ := Nat.exists_eq_add_of_le hcount
  rw [minimalBE, hhigh, ofNatLE_add, List.reverse_append]
  exact List.drop_left' (by simp)

/-! Reading the bytes of a number in the opposite order. -/

def swap (width value : Nat) : Nat := bigEndian (ofNatLE width value)

theorem swap_lt (width value : Nat) : swap width value < 256 ^ width := by
  have hlt := littleEndian_lt (ofNatLE width value).reverse
  simpa [swap, bigEndian] using hlt

theorem swap_swap (width value : Nat) :
    swap width (swap width value) = value % 256 ^ width := by
  have hbytes : ofNatLE width (swap width value) = (ofNatLE width value).reverse := by
    have hround := ofNatLE_littleEndian (ofNatLE width value).reverse
    simpa [swap, bigEndian] using hround
  rw [swap, hbytes, bigEndian_reverse, littleEndian_ofNatLE]

theorem swap_of_lt {width value : Nat} (hvalue : value < 256) :
    swap (width + 1) value = value * 256 ^ width := by
  have hdiv : value / 256 = 0 := Nat.div_eq_of_lt hvalue
  have hsingle : bigEndian [UInt8.ofNat value] = value := by
    simp [bigEndian, Nat.mod_eq_of_lt hvalue]
  rw [swap, ofNatLE, hdiv, ofNatLE_zero, ← List.singleton_append,
    bigEndian_append, hsingle]
  simp [bigEndian, mul_comm]

end Bytes

end VotingSystem.Data
