import VotingSystem.Wire.Record

namespace VotingSystem.Wire

open VotingSystem.Data

/-! Scalar fields. A scalar that has its default value is left out. -/

namespace Record

def uint64 (number value : Nat) : Record :=
  ⟨number, .varint, encodeVarint (value % 2 ^ 64)⟩

/-- Negative numbers are sign extended to 64 bits. -/
def int32 (number : Nat) (value : Int32) : Record :=
  uint64 number (value.toInt % 2 ^ 64).toNat

def bool (number : Nat) (value : Bool) : Record :=
  uint64 number value.toNat

def bytes (number : Nat) (payload : Bytes) : Record :=
  ⟨number, .lengthDelimited, payload⟩

def uint64? (record : Record) : Option Nat :=
  if record.wireType = .varint then
    some (varintValue record.payload % 2 ^ 64)
  else
    none

/-- The decoder truncates to the width of the field. -/
def int32? (record : Record) : Option Int32 :=
  record.uint64?.map Int32.ofNat

/-- An unsigned field refuses a value that does not fit. -/
def uint32? (record : Record) : Option UInt32 :=
  record.uint64?.bind fun value =>
    if value < 2 ^ 32 then some (UInt32.ofNat value) else none

def bool? (record : Record) : Option Bool :=
  record.uint64?.map fun value => value != 0

def optionalUint32 (number : Nat) (value : UInt32) : List Record :=
  if value = 0 then [] else [uint64 number value.toNat]

def optionalInt32 (number : Nat) (value : Int32) : List Record :=
  if value = 0 then [] else [int32 number value]

def optionalBool (number : Nat) (value : Bool) : List Record :=
  if value then [bool number value] else []

@[simp] theorem uint64_number (number value : Nat) :
    (uint64 number value).number = number := rfl

@[simp] theorem int32_number (number : Nat) (value : Int32) :
    (int32 number value).number = number := rfl

@[simp] theorem bool_number (number : Nat) (value : Bool) :
    (bool number value).number = number := rfl

@[simp] theorem bytes_number (number : Nat) (payload : Bytes) :
    (bytes number payload).number = number := rfl

@[simp] theorem bytes_payload (number : Nat) (payload : Bytes) :
    (bytes number payload).payload = payload := rfl

@[simp] theorem bytes_wireType (number : Nat) (payload : Bytes) :
    (bytes number payload).wireType = .lengthDelimited := rfl

@[simp] theorem uint64?_uint64 (number value : Nat) :
    (uint64 number value).uint64? = some (value % 2 ^ 64) := by
  simp [uint64?, uint64]

@[simp] theorem int32?_int32 (number : Nat) (value : Int32) :
    (int32 number value).int32? = some value := by
  have hupper := value.toInt_lt
  have hlower := value.le_toInt
  have hextend : ((value.toInt % 2 ^ 64).toNat % 2 ^ 64 : Nat) = value.toInt % 2 ^ 64 := by
    omega
  rw [int32?, int32, uint64?_uint64, Option.map_some, Option.some.injEq,
    ← Int32.ofInt_eq_ofNat, Int32.ofInt_eq_iff_bmod_eq_toInt, hextend, Int.bmod_def]
  omega

@[simp] theorem uint32?_uint64 (number : Nat) (value : UInt32) :
    (uint64 number value.toNat).uint32? = some value := by
  have hlt := value.toNat_lt
  simp [uint32?, hlt]

@[simp] theorem bool?_bool (number : Nat) (value : Bool) :
    (bool number value).bool? = some value := by
  cases value <;> simp [bool?, bool]

theorem uint64_valid {number : Nat} (hpos : 0 < number) (hlt : number < 2 ^ 29)
    (value : Nat) : (uint64 number value).Valid where
  number_pos := hpos
  number_lt := hlt
  payload_valid := by
    have hmod : value % 2 ^ 64 < 128 ^ (9 + 1) :=
      (Nat.mod_lt value (by decide)).trans (by decide)
    have htake := takeVarint_encodeVarint (value % 2 ^ 64) []
    rw [List.append_nil] at htake
    exact ⟨htake, encodeVarint_length_le hmod⟩

theorem bytes_valid {number : Nat} (hpos : 0 < number) (hlt : number < 2 ^ 29)
    (payload : Bytes) : (bytes number payload).Valid :=
  ⟨hpos, hlt, trivial⟩

theorem optionalUint32_valid {number : Nat} (hpos : 0 < number)
    (hlt : number < 2 ^ 29) (value : UInt32) :
    ∀ record ∈ optionalUint32 number value, record.Valid := by
  intro record hrecord
  unfold optionalUint32 at hrecord
  split at hrecord
  · simp at hrecord
  · rw [List.mem_singleton.mp hrecord]
    exact uint64_valid hpos hlt _

theorem optionalInt32_valid {number : Nat} (hpos : 0 < number)
    (hlt : number < 2 ^ 29) (value : Int32) :
    ∀ record ∈ optionalInt32 number value, record.Valid := by
  intro record hrecord
  unfold optionalInt32 at hrecord
  split at hrecord
  · simp at hrecord
  · rw [List.mem_singleton.mp hrecord]
    exact uint64_valid hpos hlt _

theorem optionalBool_valid {number : Nat} (hpos : 0 < number)
    (hlt : number < 2 ^ 29) (value : Bool) :
    ∀ record ∈ optionalBool number value, record.Valid := by
  intro record hrecord
  unfold optionalBool at hrecord
  split at hrecord
  · rw [List.mem_singleton.mp hrecord]
    exact uint64_valid hpos hlt _
  · simp at hrecord

end Record

/-! A decoder folds the records of a message into its value, field by field. -/

section Decode

variable {σ : Type} (field : σ → Record → Option σ)

def decodeMessage (initial : σ) (bytes : Bytes) : Option σ := do
  let records ← parse bytes
  records.foldlM field initial

theorem decodeMessage_serialize {records : List Record}
    (hvalid : ∀ record ∈ records, record.Valid) (initial : σ) :
    decodeMessage field initial (serialize records) =
      records.foldlM field initial := by
  simp [decodeMessage, parse_serialize hvalid]

variable {field}

theorem foldlM_record {state next : σ} {record : Record}
    (hfield : field state record = some next) (rest : List Record) :
    (record :: rest).foldlM field state = rest.foldlM field next := by
  simp [hfield]

theorem foldlM_optionalUint32 {state next : σ} {number : Nat} {value : UInt32}
    (hfield : field state (.uint64 number value.toNat) = some next)
    (hdefault : value = 0 → next = state) (rest : List Record) :
    (Record.optionalUint32 number value ++ rest).foldlM field state =
      rest.foldlM field next := by
  unfold Record.optionalUint32
  split
  · rename_i hzero
    rw [hdefault hzero, List.nil_append]
  · exact foldlM_record hfield rest

theorem foldlM_optionalInt32 {state next : σ} {number : Nat} {value : Int32}
    (hfield : field state (.int32 number value) = some next)
    (hdefault : value = 0 → next = state) (rest : List Record) :
    (Record.optionalInt32 number value ++ rest).foldlM field state =
      rest.foldlM field next := by
  unfold Record.optionalInt32
  split
  · rename_i hzero
    rw [hdefault hzero, List.nil_append]
  · exact foldlM_record hfield rest

theorem foldlM_optionalBool {state next : σ} {number : Nat} {value : Bool}
    (hfield : field state (.bool number value) = some next)
    (hdefault : value = false → next = state) (rest : List Record) :
    (Record.optionalBool number value ++ rest).foldlM field state =
      rest.foldlM field next := by
  unfold Record.optionalBool
  split
  · exact foldlM_record hfield rest
  · rename_i hfalse
    rw [hdefault (by simpa using hfalse), List.nil_append]

theorem foldlM_repeated {Element : Type} (record : Element → Record)
    {push : σ → Element → σ}
    (hfield : ∀ state element, field state (record element) = some (push state element))
    (state : σ) (elements : List Element) (rest : List Record) :
    (elements.map record ++ rest).foldlM field state =
      rest.foldlM field (elements.foldl push state) := by
  induction elements generalizing state with
  | nil => rfl
  | cons element elements ih =>
      rw [List.map_cons, List.cons_append, foldlM_record (hfield state element),
        ih, List.foldl_cons]

/-- Decoding into a spread-out form of the state, when every field is written there
as it is in the state itself. -/
theorem foldlM_view {τ : Type} {slots : τ → Record → Option τ} (view : σ → τ)
    (hview : ∀ state record, slots (view state) record = (field state record).map view)
    (records : List Record) (state : σ) :
    records.foldlM slots (view state) = (records.foldlM field state).map view := by
  induction records generalizing state with
  | nil => rfl
  | cons record records ih =>
      rw [List.foldlM_cons, List.foldlM_cons, hview]
      cases field state record with
      | none => rfl
      | some next => exact ih next

theorem decodeMessage_view {τ : Type} {slots : τ → Record → Option τ} (view : σ → τ)
    (hview : ∀ state record, slots (view state) record = (field state record).map view)
    (initial : σ) (bytes : Bytes) :
    decodeMessage slots (view initial) bytes =
      (decodeMessage field initial bytes).map view := by
  unfold decodeMessage
  cases parse bytes with
  | none => rfl
  | some records => exact foldlM_view view hview records initial

end Decode

end VotingSystem.Wire
