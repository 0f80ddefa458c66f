import VotingSystem.Wire.Varint

namespace VotingSystem.Wire

open VotingSystem.Data

/-! A message on the wire is a sequence of records: a field number, a wire type
and a payload. Lengths are natural numbers, as the sizes of vectors are. -/

inductive WireType
  | varint
  | fixed64
  | lengthDelimited
  | fixed32
  deriving DecidableEq, Repr

namespace WireType

def code : WireType → Nat
  | .varint => 0
  | .fixed64 => 1
  | .lengthDelimited => 2
  | .fixed32 => 5

def ofCode? : Nat → Option WireType
  | 0 => some .varint
  | 1 => some .fixed64
  | 2 => some .lengthDelimited
  | 5 => some .fixed32
  | _ => none

theorem code_lt (wireType : WireType) : wireType.code < 8 := by
  cases wireType <;> decide

@[simp] theorem ofCode?_code (wireType : WireType) :
    ofCode? wireType.code = some wireType := by
  cases wireType <;> rfl

end WireType

/-- The payload of a varint record is its raw spelling; that of a
length-delimited record leaves out the length. -/
structure Record where
  number : Nat
  wireType : WireType
  payload : Bytes
  deriving DecidableEq, Repr

def takeExactly (count : Nat) (bytes : Bytes) : Option (Bytes × Bytes) :=
  if count ≤ bytes.length then some (bytes.take count, bytes.drop count) else none

def takePayload (bytes : Bytes) : WireType → Option (Bytes × Bytes)
  | .varint => do
      let (raw, rest) ← takeVarint bytes
      if raw.length ≤ 10 then some (raw, rest) else none
  | .fixed64 => takeExactly 8 bytes
  | .lengthDelimited => do
      let (raw, rest) ← takeVarint bytes
      takeExactly (varintValue raw) rest
  | .fixed32 => takeExactly 4 bytes

/-- Read one record. Field number zero, groups and unknown wire types are
malformed. -/
def readRecord (bytes : Bytes) : Option (Record × Bytes) := do
  let (raw, rest) ← takeVarint bytes
  let tag := varintValue raw
  if raw.length ≤ 10 ∧ tag < 2 ^ 32 ∧ tag / 8 ≠ 0 then
    let wireType ← WireType.ofCode? (tag % 8)
    let (payload, rest) ← takePayload rest wireType
    some (⟨tag / 8, wireType, payload⟩, rest)
  else
    none

def parseFuel : Nat → Bytes → Option (List Record)
  | _, [] => some []
  | 0, _ :: _ => none
  | fuel + 1, bytes@(_ :: _) => do
      let (record, rest) ← readRecord bytes
      let records ← parseFuel fuel rest
      some (record :: records)

/-- Every record takes at least one byte, so the length is fuel enough. -/
def parse (bytes : Bytes) : Option (List Record) := parseFuel bytes.length bytes

namespace Record

def serialize (record : Record) : Bytes :=
  encodeVarint (record.number * 8 + record.wireType.code) ++
    match record.wireType with
    | .lengthDelimited => encodeVarint record.payload.length ++ record.payload
    | _ => record.payload

def PayloadValid (payload : Bytes) : WireType → Prop
  | .varint => takeVarint payload = some (payload, []) ∧ payload.length ≤ 10
  | .fixed64 => payload.length = 8
  | .lengthDelimited => True
  | .fixed32 => payload.length = 4

structure Valid (record : Record) : Prop where
  number_pos : 0 < record.number
  number_lt : record.number < 2 ^ 29
  payload_valid : PayloadValid record.payload record.wireType

theorem takeVarint_append {bytes raw suffix : Bytes}
    (htake : takeVarint bytes = some (raw, [])) :
    takeVarint (bytes ++ suffix) = some (raw, suffix) := by
  induction bytes generalizing raw with
  | nil => simp [takeVarint] at htake
  | cons byte rest ih =>
      simp only [List.cons_append, takeVarint] at htake ⊢
      split at htake
      · rename_i hsmall
        simp only [Option.some.injEq, Prod.mk.injEq] at htake
        obtain ⟨rfl, rfl⟩ := htake
        simp [hsmall]
      · rename_i hlarge
        obtain ⟨⟨digits, tail⟩, hrest, heq⟩ := Option.map_eq_some_iff.mp htake
        simp only [Prod.mk.injEq] at heq
        obtain ⟨rfl, rfl⟩ := heq
        simp [hlarge, ih hrest]

theorem takeExactly_append {bytes suffix : Bytes} {count : Nat}
    (hlength : bytes.length = count) :
    takeExactly count (bytes ++ suffix) = some (bytes, suffix) := by
  subst hlength
  simp [takeExactly]

theorem readRecord_serialize {record : Record} (hvalid : record.Valid)
    (suffix : Bytes) :
    readRecord (record.serialize ++ suffix) = some (record, suffix) := by
  obtain ⟨number, wireType, payload⟩ := record
  obtain ⟨hpos, hlt, hpayload⟩ := hvalid
  simp only at hpos hlt hpayload
  have hcode := wireType.code_lt
  have htagLt : number * 8 + wireType.code < 2 ^ 32 := by omega
  have htagCapacity : number * 8 + wireType.code < 128 ^ (4 + 1) := by omega
  have htagLength : (encodeVarint (number * 8 + wireType.code)).length ≤ 10 :=
    (encodeVarint_length_le htagCapacity).trans (by omega)
  have hnumber : (number * 8 + wireType.code) / 8 = number := by omega
  have hwire : (number * 8 + wireType.code) % 8 = wireType.code := by omega
  have hread : ∀ body, takePayload (body ++ suffix) wireType = some (payload, suffix) →
      readRecord (encodeVarint (number * 8 + wireType.code) ++ body ++ suffix) =
        some (⟨number, wireType, payload⟩, suffix) := by
    intro body hbody
    have haccepted : (encodeVarint (number * 8 + wireType.code)).length ≤ 10 ∧
        number * 8 + wireType.code < 2 ^ 32 ∧ number ≠ 0 :=
      ⟨htagLength, htagLt, hpos.ne'⟩
    simp only [readRecord, List.append_assoc, takeVarint_encodeVarint,
      varintValue_encodeVarint, Option.bind_eq_bind, Option.bind_some, hnumber,
      hwire, WireType.ofCode?_code, hbody, if_pos haccepted]
  cases wireType with
  | varint =>
      apply hread
      simp [takePayload, takeVarint_append hpayload.1, hpayload.2]
  | fixed64 => exact hread _ (takeExactly_append hpayload)
  | lengthDelimited =>
      apply hread
      simp [takePayload, List.append_assoc, takeExactly_append]
  | fixed32 => exact hread _ (takeExactly_append hpayload)

theorem serialize_ne_nil (record : Record) : record.serialize ≠ [] := by
  have hpos := encodeVarint_length_pos (record.number * 8 + record.wireType.code)
  intro hnil
  have := congrArg List.length hnil
  simp only [serialize, List.length_append, List.length_nil] at this
  omega

end Record

def serialize (records : List Record) : Bytes := records.flatMap Record.serialize

@[simp] theorem serialize_nil : serialize [] = [] := rfl

@[simp] theorem serialize_cons (record : Record) (records : List Record) :
    serialize (record :: records) = record.serialize ++ serialize records := rfl

theorem serialize_append (front back : List Record) :
    serialize (front ++ back) = serialize front ++ serialize back :=
  List.flatMap_append

theorem length_le_serialize (records : List Record) :
    records.length ≤ (serialize records).length := by
  induction records with
  | nil => simp
  | cons record records ih =>
      have hpos : 0 < record.serialize.length :=
        List.length_pos_iff.mpr record.serialize_ne_nil
      simp only [serialize_cons, List.length_cons, List.length_append]
      omega

theorem parseFuel_serialize {fuel : Nat} {records : List Record}
    (hfuel : records.length ≤ fuel) (hvalid : ∀ record ∈ records, record.Valid) :
    parseFuel fuel (serialize records) = some records := by
  induction records generalizing fuel with
  | nil => cases fuel <;> rfl
  | cons record records ih =>
      match fuel with
      | 0 => simp at hfuel
      | fuel + 1 =>
          have hrest := @ih fuel (by simpa using hfuel)
            fun other hother => hvalid other (by simp [hother])
          have hread := Record.readRecord_serialize (hvalid record (by simp))
            (serialize records)
          obtain ⟨byte, bytes, hbytes⟩ :=
            List.exists_cons_of_ne_nil record.serialize_ne_nil
          rw [serialize_cons]
          rw [hbytes] at hread ⊢
          simp only [List.cons_append] at hread
          simp [parseFuel, hread, hrest]

theorem parse_serialize {records : List Record}
    (hvalid : ∀ record ∈ records, record.Valid) :
    parse (serialize records) = some records :=
  parseFuel_serialize (length_le_serialize records) hvalid

end VotingSystem.Wire
