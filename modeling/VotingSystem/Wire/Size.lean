import VotingSystem.Wire.Message

namespace VotingSystem.Wire

open VotingSystem.Data

/-! How many bytes records take on the wire. -/

namespace Record

theorem tag_length {number : Nat} (hnumber : number < 16) (wireType : WireType) :
    (encodeVarint (number * 8 + wireType.code)).length = 1 := by
  have hcode := wireType.code_lt
  exact encodeVarint_length_eq (.inl rfl) (by omega)

theorem serialize_bytes_length {number : Nat} (hnumber : number < 16) (payload : Bytes) :
    (bytes number payload).serialize.length =
      1 + (encodeVarint payload.length).length + payload.length := by
  have htag := tag_length hnumber .lengthDelimited
  simp only [serialize, bytes, List.length_append] at htag ⊢
  omega

theorem serialize_bytes_length_eq {number : Nat} (hnumber : number < 16)
    {payload : Bytes} {size : Nat} (hsize : payload.length = size) (hlower : 128 ≤ size)
    (hupper : size < 16384) : (bytes number payload).serialize.length = size + 3 := by
  have hwidth : (encodeVarint size).length = 1 + 1 :=
    encodeVarint_length_eq (.inr (by omega)) (by omega)
  rw [serialize_bytes_length hnumber, hsize, hwidth]
  omega

theorem serialize_bytes_length_le {number : Nat} (hnumber : number < 16)
    {payload : Bytes} {size : Nat} (hsize : payload.length ≤ size) (hupper : size < 16384) :
    (bytes number payload).serialize.length ≤ size + 3 := by
  have hwidth : (encodeVarint payload.length).length ≤ 1 + 1 :=
    encodeVarint_length_le (by omega)
  rw [serialize_bytes_length hnumber]
  omega

theorem lt_serialize_bytes_length {number : Nat} (hnumber : number < 16)
    (payload : Bytes) : payload.length + 1 < (bytes number payload).serialize.length := by
  have hpos := encodeVarint_length_pos payload.length
  rw [serialize_bytes_length hnumber]
  omega

theorem serialize_uint64_length {number : Nat} (hnumber : number < 16) (value : Nat) :
    (uint64 number value).serialize.length =
      1 + (encodeVarint (value % 2 ^ 64)).length := by
  have htag := tag_length hnumber .varint
  simp only [serialize, uint64, List.length_append] at htag ⊢
  omega

theorem serialize_uint64_length_le {number : Nat} (hnumber : number < 16) (value : Nat) :
    (uint64 number value).serialize.length ≤ 11 := by
  have hmod : value % 2 ^ 64 < 128 ^ (9 + 1) :=
    (Nat.mod_lt value (by decide)).trans (by decide)
  have hwidth := encodeVarint_length_le hmod
  rw [serialize_uint64_length hnumber]
  omega

theorem serialize_optionalInt32_length_le {number : Nat} (hnumber : number < 16)
    (value : Int32) : (Wire.serialize (optionalInt32 number value)).length ≤ 11 := by
  unfold optionalInt32
  split
  · simp
  · simpa [int32] using serialize_uint64_length_le hnumber _

end Record

theorem serialize_map_length {Element : Type} (record : Element → Record)
    {lower upper : Nat} {elements : List Element}
    (hbounds : ∀ element ∈ elements,
      lower ≤ (record element).serialize.length ∧
        (record element).serialize.length ≤ upper) :
    lower * elements.length ≤ (serialize (elements.map record)).length ∧
      (serialize (elements.map record)).length ≤ upper * elements.length := by
  induction elements with
  | nil => simp
  | cons element elements ih =>
      have hhead := hbounds element (by simp)
      have htail := ih fun other hother => hbounds other (by simp [hother])
      simp only [List.map_cons, serialize_cons, List.length_append, List.length_cons,
        Nat.mul_add, Nat.mul_one]
      omega

end VotingSystem.Wire
