import VotingSystem.Wire.Message

namespace VotingSystem.Wire

open VotingSystem.Data

/-! Parsing a message in pieces. -/

theorem takeVarint_suffix {bytes raw rest : Bytes} (htake : takeVarint bytes = some (raw, rest))
    (suffix : Bytes) : takeVarint (bytes ++ suffix) = some (raw, rest ++ suffix) := by
  induction bytes generalizing raw with
  | nil => cases htake
  | cons byte bytes ih =>
      rw [List.cons_append, takeVarint]
      rw [takeVarint] at htake
      by_cases hlast : byte.toNat < 128
      · rw [if_pos hlast] at htake ⊢
        cases htake
        rfl
      · rw [if_neg hlast] at htake ⊢
        obtain ⟨⟨digits, tail⟩, hdigits, heq⟩ := Option.map_eq_some_iff.mp htake
        cases heq
        rw [ih hdigits, Option.map_some]

theorem takeExactly_suffix {count : Nat} {bytes payload rest : Bytes}
    (htake : takeExactly count bytes = some (payload, rest)) (suffix : Bytes) :
    takeExactly count (bytes ++ suffix) = some (payload, rest ++ suffix) := by
  unfold takeExactly at htake ⊢
  by_cases hlength : count ≤ bytes.length
  · rw [if_pos hlength] at htake
    cases htake
    rw [if_pos (by rw [List.length_append]; omega), List.take_append_of_le_length hlength,
      List.drop_append_of_le_length hlength]
  · rw [if_neg hlength] at htake
    cases htake

theorem takePayload_suffix {wireType : WireType} {bytes payload rest : Bytes}
    (htake : takePayload bytes wireType = some (payload, rest)) (suffix : Bytes) :
    takePayload (bytes ++ suffix) wireType = some (payload, rest ++ suffix) := by
  cases wireType with
  | varint =>
      obtain ⟨⟨raw, tail⟩, hraw, hlength⟩ := Option.bind_eq_some_iff.mp htake
      simp only at hlength
      rw [takePayload, takeVarint_suffix hraw]
      by_cases hshort : raw.length ≤ 10
      · rw [if_pos hshort] at hlength
        cases hlength
        exact if_pos hshort
      · rw [if_neg hshort] at hlength
        cases hlength
  | fixed64 => exact takeExactly_suffix htake suffix
  | lengthDelimited =>
      obtain ⟨⟨raw, tail⟩, hraw, hpayload⟩ := Option.bind_eq_some_iff.mp htake
      rw [takePayload, takeVarint_suffix hraw]
      exact takeExactly_suffix hpayload suffix
  | fixed32 => exact takeExactly_suffix htake suffix

theorem readRecord_suffix {bytes rest : Bytes} {record : Record}
    (hread : readRecord bytes = some (record, rest)) (suffix : Bytes) :
    readRecord (bytes ++ suffix) = some (record, rest ++ suffix) := by
  obtain ⟨⟨raw, body⟩, hraw, hbody⟩ := Option.bind_eq_some_iff.mp hread
  simp only at hbody
  rw [readRecord, takeVarint_suffix hraw]
  split at hbody
  · rename_i htag
    obtain ⟨wireType, hwireType, hpayload⟩ := Option.bind_eq_some_iff.mp hbody
    obtain ⟨⟨payload, tail⟩, htake, heq⟩ := Option.bind_eq_some_iff.mp hpayload
    cases heq
    simp only [Option.bind_eq_bind, Option.bind_some]
    rw [if_pos htag, hwireType, Option.bind_some, takePayload_suffix htake, Option.bind_some]
  · cases hbody

theorem takeVarint_length_lt {bytes raw rest : Bytes}
    (htake : takeVarint bytes = some (raw, rest)) : rest.length < bytes.length := by
  induction bytes generalizing raw with
  | nil => cases htake
  | cons byte bytes ih =>
      rw [takeVarint] at htake
      by_cases hlast : byte.toNat < 128
      · rw [if_pos hlast] at htake
        cases htake
        exact Nat.lt_succ_self _
      · rw [if_neg hlast] at htake
        obtain ⟨⟨digits, tail⟩, hdigits, heq⟩ := Option.map_eq_some_iff.mp htake
        cases heq
        exact (ih hdigits).trans (Nat.lt_succ_self _)

theorem takeExactly_length_le {count : Nat} {bytes payload rest : Bytes}
    (htake : takeExactly count bytes = some (payload, rest)) :
    rest.length ≤ bytes.length := by
  unfold takeExactly at htake
  split at htake
  · cases htake
    rw [List.length_drop]
    omega
  · cases htake

theorem takePayload_length_le {wireType : WireType} {bytes payload rest : Bytes}
    (htake : takePayload bytes wireType = some (payload, rest)) :
    rest.length ≤ bytes.length := by
  cases wireType with
  | varint =>
      obtain ⟨⟨raw, tail⟩, hraw, hlength⟩ := Option.bind_eq_some_iff.mp htake
      simp only at hlength
      split at hlength
      · cases hlength
        exact (takeVarint_length_lt hraw).le
      · cases hlength
  | fixed64 => exact takeExactly_length_le htake
  | lengthDelimited =>
      obtain ⟨⟨raw, tail⟩, hraw, hpayload⟩ := Option.bind_eq_some_iff.mp htake
      exact (takeExactly_length_le hpayload).trans (takeVarint_length_lt hraw).le
  | fixed32 => exact takeExactly_length_le htake

/-- A record takes at least one byte. -/
theorem readRecord_length_lt {bytes rest : Bytes} {record : Record}
    (hread : readRecord bytes = some (record, rest)) : rest.length < bytes.length := by
  obtain ⟨⟨raw, body⟩, hraw, hbody⟩ := Option.bind_eq_some_iff.mp hread
  simp only at hbody
  split at hbody
  · obtain ⟨wireType, _, hpayload⟩ := Option.bind_eq_some_iff.mp hbody
    obtain ⟨⟨payload, tail⟩, htake, heq⟩ := Option.bind_eq_some_iff.mp hpayload
    cases heq
    exact (takePayload_length_le htake).trans_lt (takeVarint_length_lt hraw)
  · cases hbody

/-- More fuel than bytes changes nothing. -/
theorem parseFuel_eq_parse {fuel : Nat} {bytes : Bytes} (hfuel : bytes.length ≤ fuel) :
    parseFuel fuel bytes = parse bytes := by
  induction fuel using Nat.strong_induction_on generalizing bytes with
  | h fuel ih =>
      cases bytes with
      | nil =>
          cases fuel with
          | zero => rfl
          | succ fuel => rfl
      | cons byte bytes =>
          obtain ⟨fuel, rfl⟩ : ∃ less, fuel = less + 1 :=
            Nat.exists_eq_succ_of_ne_zero (by rw [List.length_cons] at hfuel; omega)
          rw [List.length_cons] at hfuel
          rw [parse, List.length_cons, parseFuel, parseFuel]
          cases hread : readRecord (byte :: bytes) with
          | none => rfl
          | some pair =>
              have hrest := readRecord_length_lt hread
              rw [List.length_cons] at hrest
              simp only [Option.bind_eq_bind, Option.bind_some]
              rw [ih fuel (by omega) (by omega), ih bytes.length (by omega) (by omega)]

theorem parse_cons {bytes rest : Bytes} {record : Record}
    (hread : readRecord bytes = some (record, rest)) :
    parse bytes = (parse rest).map (record :: ·) := by
  cases bytes with
  | nil => cases hread
  | cons byte bytes =>
      have hrest := readRecord_length_lt hread
      rw [List.length_cons] at hrest
      rw [parse, List.length_cons, parseFuel, hread]
      simp only [Option.bind_eq_bind, Option.bind_some]
      rw [parseFuel_eq_parse (Nat.le_of_lt_succ hrest)]
      cases parse rest with
      | none => rfl
      | some records => rfl

theorem parse_eq_none {byte : UInt8} {bytes : Bytes}
    (hread : readRecord (byte :: bytes) = none) : parse (byte :: bytes) = none := by
  rw [parse, List.length_cons, parseFuel, hread]
  rfl

theorem eq_nil_of_parse {bytes : Bytes} (hparse : parse bytes = some []) : bytes = [] := by
  cases bytes with
  | nil => rfl
  | cons byte bytes =>
      cases hread : readRecord (byte :: bytes) with
      | none =>
          rw [parse_eq_none hread] at hparse
          cases hparse
      | some pair =>
          rw [parse_cons hread] at hparse
          obtain ⟨records, _, hnil⟩ := Option.map_eq_some_iff.mp hparse
          cases hnil

theorem exists_of_parse_eq_cons {bytes : Bytes} {record : Record} {records : List Record}
    (hparse : parse bytes = some (record :: records)) :
    ∃ rest, readRecord bytes = some (record, rest) ∧ parse rest = some records := by
  cases bytes with
  | nil => cases hparse
  | cons byte bytes =>
      cases hread : readRecord (byte :: bytes) with
      | none =>
          rw [parse_eq_none hread] at hparse
          cases hparse
      | some pair =>
          obtain ⟨first, rest⟩ := pair
          rw [parse_cons hread] at hparse
          obtain ⟨others, hothers, heq⟩ := Option.map_eq_some_iff.mp hparse
          cases heq
          exact ⟨rest, rfl, hothers⟩

/-- What follows a field boundary is parsed on its own. -/
theorem parse_append {front : Bytes} {records : List Record}
    (hfront : parse front = some records) (back : Bytes) :
    parse (front ++ back) = (parse back).map (records ++ ·) := by
  induction records generalizing front with
  | nil =>
      rw [eq_nil_of_parse hfront, List.nil_append]
      cases parse back with
      | none => rfl
      | some rest => rfl
  | cons record records ih =>
      obtain ⟨rest, hread, hrest⟩ := exists_of_parse_eq_cons hfront
      rw [parse_cons (readRecord_suffix hread back), ih hrest, Option.map_map]
      rfl

section Decode

variable {State : Type} {field : State → Record → Option State}

theorem foldlM_ignored {extra : List Record}
    (hignored : ∀ record ∈ extra, ∀ state, field state record = some state) (state : State) :
    extra.foldlM field state = some state := by
  induction extra with
  | nil => rfl
  | cons record extra ih =>
      rw [List.foldlM_cons, hignored record (by simp)]
      exact ih fun other hother => hignored other (by simp [hother])

/-- Fields that a decoder ignores can stand at any field boundary. -/
theorem decodeMessage_ignored {initial : State} {front : Bytes} {records extra : List Record}
    (hfront : parse front = some records) (hvalid : ∀ record ∈ extra, record.Valid)
    (hignored : ∀ record ∈ extra, ∀ state, field state record = some state) (back : Bytes) :
    decodeMessage field initial (front ++ serialize extra ++ back) =
      decodeMessage field initial (front ++ back) := by
  rw [List.append_assoc, decodeMessage, decodeMessage, parse_append hfront,
    parse_append hfront, parse_append (parse_serialize hvalid)]
  cases hback : parse back with
  | none => rfl
  | some rest =>
      simp only [Option.map_some, Option.bind_eq_bind, Option.bind_some, List.foldlM_append,
        foldlM_ignored hignored]

end Decode

/-! A decoder that skips some fields, on what the other decoder accepts. -/

section View

variable {State View : Type} {field : State → Record → Option State}
variable {slots : View → Record → Option View} (view : State → View)

theorem foldlM_of_view
    (hview : ∀ state record next, field state record = some next →
      slots (view state) record = some (view next))
    {records : List Record} {state final : State}
    (hfold : records.foldlM field state = some final) :
    records.foldlM slots (view state) = some (view final) := by
  induction records generalizing state with
  | nil =>
      cases hfold
      rfl
  | cons record records ih =>
      rw [List.foldlM_cons] at hfold ⊢
      obtain ⟨next, hnext, hrest⟩ := Option.bind_eq_some_iff.mp hfold
      rw [hview state record next hnext]
      exact ih hrest

theorem decodeMessage_of_view
    (hview : ∀ state record next, field state record = some next →
      slots (view state) record = some (view next))
    {initial final : State} {bytes : Bytes}
    (hdecode : decodeMessage field initial bytes = some final) :
    decodeMessage slots (view initial) bytes = some (view final) := by
  obtain ⟨records, hparse, hfold⟩ := Option.bind_eq_some_iff.mp hdecode
  rw [decodeMessage, hparse]
  exact foldlM_of_view view hview hfold

end View

end VotingSystem.Wire
