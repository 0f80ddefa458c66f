import Mathlib.Data.List.ModifyLast
import VotingSystem.Protos.RoundTrip

namespace VotingSystem.Protos

open VotingSystem.Data VotingSystem.Wire

/-! The decode callbacks of `Encoding.cpp` as they are written. What the callbacks
of a repeated message produce is spread over vectors that grow together: a callback
appends a slot to each of them and decodes into the last slots. -/

/-- The generated structure without its callbacks. -/
structure EncryptedBallotEntryStruct where
  id : Int32
  candidateId : Int32
  deriving DecidableEq, Repr

structure EntryVectors where
  first : List EncryptedBallotEntryStruct
  second : List Bytes
  deriving DecidableEq, Repr

namespace EntryVectors

def empty : EntryVectors := ⟨[], []⟩

def grow (vectors : EntryVectors) : EntryVectors :=
  ⟨vectors.first ++ [⟨0, 0⟩], vectors.second ++ [[]]⟩

def field (vectors : EntryVectors) (record : Record) : Option EntryVectors :=
  match record.number with
  | 1 => record.int32?.map fun id =>
      { vectors with first := vectors.first.modifyLast fun ebe => { ebe with id := id } }
  | 2 => record.int32?.map fun candidateId =>
      { vectors with
        first := vectors.first.modifyLast fun ebe => { ebe with candidateId := candidateId } }
  | 3 => some { vectors with second := vectors.second.modifyLast fun _ => record.payload }
  | _ => some vectors

def encryptedBallotEntriesDecodeFunc (vectors : EntryVectors) (payload : Bytes) :
    Option EntryVectors :=
  decodeMessage field vectors.grow payload

def split (entries : List EncryptedBallotEntry) : EntryVectors where
  first := entries.map fun entry => ⟨entry.id, entry.candidateId⟩
  second := entries.map EncryptedBallotEntry.encryptedValue

/-- The entries as they are read back, position by position. -/
def assemble (vectors : EntryVectors) : List EncryptedBallotEntry :=
  vectors.first.zipWith (fun ebe value => ⟨ebe.id, ebe.candidateId, value⟩) vectors.second

@[simp] theorem assemble_split (entries : List EncryptedBallotEntry) :
    (split entries).assemble = entries := by
  simp [assemble, split, List.zipWith_map, List.zipWith_self]

theorem grow_split (entries : List EncryptedBallotEntry) :
    (split entries).grow = split (entries ++ [.default]) := by
  simp [grow, split, EncryptedBallotEntry.default]

/-- Every field of an entry reaches the last slot of its own vector. -/
theorem field_split (entries : List EncryptedBallotEntry) (entry : EncryptedBallotEntry)
    (record : Record) :
    field (split (entries ++ [entry])) record =
      (entry.field record).map fun entry => split (entries ++ [entry]) := by
  obtain ⟨number, wireType, payload⟩ := record
  match number with
  | 0 => rfl
  | 1 => simp [field, EncryptedBallotEntry.field, split, Function.comp_def,
      List.modifyLast_concat]
  | 2 => simp [field, EncryptedBallotEntry.field, split, Function.comp_def,
      List.modifyLast_concat]
  | 3 => simp [field, EncryptedBallotEntry.field, split, List.modifyLast_concat]
  | number + 4 => rfl

theorem encryptedBallotEntriesDecodeFunc_split (entries : List EncryptedBallotEntry)
    (payload : Bytes) :
    encryptedBallotEntriesDecodeFunc (split entries) payload =
      (decodeMessage EncryptedBallotEntry.field .default payload).map
        fun entry => split (entries ++ [entry]) := by
  rw [encryptedBallotEntriesDecodeFunc, grow_split]
  exact decodeMessage_view (fun entry => split (entries ++ [entry])) (field_split entries) _ _

end EntryVectors

/-- An encrypted ballot as the server decodes it. -/
structure BallotVectors where
  electionId : Int32
  entries : EntryVectors
  deriving DecidableEq, Repr

namespace BallotVectors

def default : BallotVectors := ⟨0, .empty⟩

def field (vectors : BallotVectors) (record : Record) : Option BallotVectors :=
  match record.number with
  | 1 => record.int32?.map fun electionId => { vectors with electionId := electionId }
  | 2 => (vectors.entries.encryptedBallotEntriesDecodeFunc record.payload).map
      fun entries => { vectors with entries := entries }
  | _ => some vectors

def decode (bytes : Bytes) : Option BallotVectors := decodeMessage field default bytes

def split (ballot : EncryptedBallot) : BallotVectors :=
  ⟨ballot.electionId, .split ballot.encryptedBallotEntries⟩

def assemble (vectors : BallotVectors) : EncryptedBallot :=
  ⟨vectors.electionId, vectors.entries.assemble⟩

@[simp] theorem assemble_split (ballot : EncryptedBallot) :
    (split ballot).assemble = ballot := by
  simp [assemble, split]

theorem field_split (ballot : EncryptedBallot) (record : Record) :
    field (split ballot) record = (ballot.field record).map split := by
  obtain ⟨number, wireType, payload⟩ := record
  match number with
  | 0 => rfl
  | 1 => simp [field, EncryptedBallot.field, split, Function.comp_def]
  | 2 =>
      simp [field, EncryptedBallot.field, EncryptedBallot.push, split, Function.comp_def,
        EntryVectors.encryptedBallotEntriesDecodeFunc_split]
  | number + 3 => rfl

/-- The vectors are those of the decoded ballot, for every input. -/
theorem decode_eq (bytes : Bytes) :
    decode bytes = (EncryptedBallot.decode bytes).map split :=
  decodeMessage_view split field_split .default bytes

end BallotVectors

/-- The generated structure without its callbacks; the encrypted ballot lies inside
it. -/
structure CastEncryptedBallotStruct where
  id : Int32
  voterId : Int32
  castAt : Int32
  electionId : Int32
  deriving DecidableEq, Repr

structure CastVectors where
  first : List CastEncryptedBallotStruct
  second : List (Bytes × Bytes)
  third : List (List EncryptedBallotEntryStruct)
  fourth : List (List Bytes)
  deriving DecidableEq, Repr

namespace CastVectors

def empty : CastVectors := ⟨[], [], [], []⟩

def grow (vectors : CastVectors) : CastVectors :=
  ⟨vectors.first ++ [⟨0, 0, 0, 0⟩], vectors.second ++ [([], [])], vectors.third ++ [[]],
    vectors.fourth ++ [[]]⟩

/-- The vectors that the callback of the entries gets. -/
def argsInner (vectors : CastVectors) : EntryVectors :=
  ⟨vectors.third.getLastD [], vectors.fourth.getLastD []⟩

def ballotField (vectors : CastVectors) (record : Record) : Option CastVectors :=
  match record.number with
  | 1 => record.int32?.map fun electionId =>
      { vectors with
        first := vectors.first.modifyLast fun ceb => { ceb with electionId := electionId } }
  | 2 => (vectors.argsInner.encryptedBallotEntriesDecodeFunc record.payload).map fun inner =>
      { vectors with
        third := vectors.third.modifyLast fun _ => inner.first
        fourth := vectors.fourth.modifyLast fun _ => inner.second }
  | _ => some vectors

def field (vectors : CastVectors) (record : Record) : Option CastVectors :=
  match record.number with
  | 1 => record.int32?.map fun id =>
      { vectors with first := vectors.first.modifyLast fun ceb => { ceb with id := id } }
  | 2 => record.int32?.map fun voterId =>
      { vectors with
        first := vectors.first.modifyLast fun ceb => { ceb with voterId := voterId } }
  | 3 => record.int32?.map fun castAt =>
      { vectors with
        first := vectors.first.modifyLast fun ceb => { ceb with castAt := castAt } }
  | 4 => submessage? ballotField vectors record
  | 5 => some
      { vectors with
        second := vectors.second.modifyLast fun data => (record.payload, data.2) }
  | 6 => some
      { vectors with
        second := vectors.second.modifyLast fun data => (data.1, record.payload) }
  | _ => some vectors

def castEncryptedBallotsDecodeFunc (vectors : CastVectors) (payload : Bytes) :
    Option CastVectors :=
  decodeMessage field vectors.grow payload

/-- The field of `CastEncryptedBallots`. -/
def ballotsField (vectors : CastVectors) (record : Record) : Option CastVectors :=
  match record.number with
  | 1 => vectors.castEncryptedBallotsDecodeFunc record.payload
  | _ => some vectors

def decode (bytes : Bytes) : Option CastVectors := decodeMessage ballotsField empty bytes

def split (cebs : List CastEncryptedBallot) : CastVectors where
  first := cebs.map fun ceb =>
    ⟨ceb.id, ceb.voterId, ceb.castAt, ceb.encryptedBallot.electionId⟩
  second := cebs.map fun ceb => (ceb.castCommandData, ceb.voterSignature)
  third := cebs.map fun ceb => (EntryVectors.split ceb.encryptedBallot.encryptedBallotEntries).first
  fourth := cebs.map fun ceb =>
    (EntryVectors.split ceb.encryptedBallot.encryptedBallotEntries).second

/-- The ballots as they are read back, position by position. -/
def assemble (vectors : CastVectors) : List CastEncryptedBallot :=
  ((vectors.first.zip vectors.second).zip (vectors.third.zip vectors.fourth)).map
    fun ((ceb, data), (entries, values)) =>
      { id := ceb.id
        voterId := ceb.voterId
        castAt := ceb.castAt
        encryptedBallot := ⟨ceb.electionId, (EntryVectors.mk entries values).assemble⟩
        castCommandData := data.1
        voterSignature := data.2 }

@[simp] theorem assemble_split (cebs : List CastEncryptedBallot) :
    (split cebs).assemble = cebs := by
  have hentry : ∀ entries : List EncryptedBallotEntry,
      (EntryVectors.mk (EntryVectors.split entries).first
        (EntryVectors.split entries).second).assemble = entries := EntryVectors.assemble_split
  simp [assemble, split, List.zip_map', Function.comp_def, hentry]

theorem grow_split (cebs : List CastEncryptedBallot) :
    (split cebs).grow = split (cebs ++ [.default]) := by
  simp [grow, split, CastEncryptedBallot.default, EncryptedBallot.default, EntryVectors.split]

theorem argsInner_split (cebs : List CastEncryptedBallot) (ceb : CastEncryptedBallot) :
    (split (cebs ++ [ceb])).argsInner =
      EntryVectors.split ceb.encryptedBallot.encryptedBallotEntries := by
  simp [argsInner, split]

theorem ballotField_split (cebs : List CastEncryptedBallot) (ceb : CastEncryptedBallot)
    (ballot : EncryptedBallot) (record : Record) :
    ballotField (split (cebs ++ [{ ceb with encryptedBallot := ballot }])) record =
      (ballot.field record).map fun ballot =>
        split (cebs ++ [{ ceb with encryptedBallot := ballot }]) := by
  obtain ⟨number, wireType, payload⟩ := record
  match number with
  | 0 => rfl
  | 1 =>
      simp [ballotField, EncryptedBallot.field, split, Function.comp_def,
        List.modifyLast_concat]
  | 2 =>
      simp only [ballotField, EncryptedBallot.field, argsInner_split,
        EntryVectors.encryptedBallotEntriesDecodeFunc_split]
      simp [split, EncryptedBallot.push, Function.comp_def, List.modifyLast_concat]
  | number + 3 => rfl

/-- Every field of a ballot reaches the last slots of its own vectors. -/
theorem field_split (cebs : List CastEncryptedBallot) (ceb : CastEncryptedBallot)
    (record : Record) :
    field (split (cebs ++ [ceb])) record =
      (ceb.field record).map fun ceb => split (cebs ++ [ceb]) := by
  obtain ⟨number, wireType, payload⟩ := record
  match number with
  | 0 => rfl
  | 1 =>
      simp [field, CastEncryptedBallot.field, split, Function.comp_def, List.modifyLast_concat]
  | 2 =>
      simp [field, CastEncryptedBallot.field, split, Function.comp_def, List.modifyLast_concat]
  | 3 =>
      simp [field, CastEncryptedBallot.field, split, Function.comp_def, List.modifyLast_concat]
  | 4 =>
      have hballot := decodeMessage_view
        (fun ballot => split (cebs ++ [{ ceb with encryptedBallot := ballot }]))
        (ballotField_split cebs ceb) ceb.encryptedBallot payload
      cases wireType <;>
        simp [field, CastEncryptedBallot.field, submessage?, hballot, Function.comp_def]
  | 5 => simp [field, CastEncryptedBallot.field, split, List.modifyLast_concat]
  | 6 => simp [field, CastEncryptedBallot.field, split, List.modifyLast_concat]
  | number + 7 => rfl

theorem castEncryptedBallotsDecodeFunc_split (cebs : List CastEncryptedBallot)
    (payload : Bytes) :
    castEncryptedBallotsDecodeFunc (split cebs) payload =
      (decodeMessage CastEncryptedBallot.field .default payload).map
        fun ceb => split (cebs ++ [ceb]) := by
  rw [castEncryptedBallotsDecodeFunc, grow_split]
  exact decodeMessage_view (fun ceb => split (cebs ++ [ceb])) (field_split cebs) _ _

theorem decode_eq (bytes : Bytes) :
    decode bytes =
      (CastEncryptedBallots.decode bytes).map fun cebs => split cebs.castEncryptedBallots := by
  apply decodeMessage_view (fun cebs : CastEncryptedBallots => split cebs.castEncryptedBallots)
    _ .default bytes
  intro cebs record
  obtain ⟨number, wireType, payload⟩ := record
  match number with
  | 0 => rfl
  | 1 =>
      simp [ballotsField, CastEncryptedBallots.field, CastEncryptedBallots.push,
        castEncryptedBallotsDecodeFunc_split, Function.comp_def]
  | number + 2 => rfl

end CastVectors

/-! Round trips. -/

/-- Every entry has its ciphertext. -/
def EntryVectors.Aligned (vectors : EntryVectors) : Prop :=
  vectors.second.length = vectors.first.length

structure CastVectors.Aligned (vectors : CastVectors) : Prop where
  second : vectors.second.length = vectors.first.length
  third : vectors.third.length = vectors.first.length
  fourth : vectors.fourth.length = vectors.first.length
  entries : vectors.fourth.map List.length = vectors.third.map List.length

theorem EntryVectors.aligned_split (entries : List EncryptedBallotEntry) :
    (EntryVectors.split entries).Aligned := by
  simp [Aligned, split]

theorem CastVectors.aligned_split (cebs : List CastEncryptedBallot) :
    (CastVectors.split cebs).Aligned where
  second := by simp [split]
  third := by simp [split]
  fourth := by simp [split]
  entries := by simp [split, EntryVectors.split, Function.comp_def]

/-- What was encoded is decoded to the same value, its parts at the same positions
of vectors of the same length. -/
theorem decode_encodeMessage (encodeFails : Bytes → Bool) (bytes : Bytes) :
    (∀ command : Command, encodeMessage encodeFails command = some bytes →
      Command.decode bytes = some command) ∧
    (∀ response : Response, encodeMessage encodeFails response = some bytes →
      Response.decode bytes = some response) ∧
    (∀ ballot : EncryptedBallot, encodeMessage encodeFails ballot = some bytes →
      ∃ vectors, BallotVectors.decode bytes = some vectors ∧ vectors.entries.Aligned ∧
        vectors.assemble = ballot) ∧
    ∀ cebs : CastEncryptedBallots, encodeMessage encodeFails cebs = some bytes →
      ∃ vectors, CastVectors.decode bytes = some vectors ∧ vectors.Aligned ∧
        vectors.assemble = cebs.castEncryptedBallots := by
  refine ⟨?_, ?_, ?_, ?_⟩
  · intro command hencode
    rw [(encodeMessage_eq_some.mp hencode).2, Command.decode_encode]
  · intro response hencode
    rw [(encodeMessage_eq_some.mp hencode).2, Response.decode_encode]
  · intro ballot hencode
    refine ⟨.split ballot, ?_, EntryVectors.aligned_split _, BallotVectors.assemble_split ballot⟩
    rw [(encodeMessage_eq_some.mp hencode).2, BallotVectors.decode_eq,
      EncryptedBallot.decode_encode, Option.map_some]
  · intro cebs hencode
    refine ⟨.split cebs.castEncryptedBallots, ?_, CastVectors.aligned_split _,
      CastVectors.assemble_split _⟩
    rw [(encodeMessage_eq_some.mp hencode).2, CastVectors.decode_eq,
      CastEncryptedBallots.decode_encode, Option.map_some]

theorem decode_encodeMessage_entry :
    Command.decode (encode (⟨0, [], [], []⟩ : Command)) = some ⟨0, [], [], []⟩ ∧
      Response.decode (encode (⟨7, [], [1], []⟩ : Response)) = some ⟨7, [], [1], []⟩ ∧
      (∃ vectors,
        BallotVectors.decode (encode (⟨1, [⟨0, 0, []⟩, ⟨0, 2, [7]⟩]⟩ : EncryptedBallot)) =
            some vectors ∧
          vectors.entries.Aligned ∧
          vectors.assemble = ⟨1, [⟨0, 0, []⟩, ⟨0, 2, [7]⟩]⟩) ∧
      ∃ vectors,
        CastVectors.decode (encode
            (⟨[⟨1, 1, 5, ⟨1, []⟩, [], []⟩, ⟨2, 1, 5, ⟨1, [⟨1, 2, [7]⟩]⟩, [], [1]⟩]⟩ :
              CastEncryptedBallots)) =
            some vectors ∧
          vectors.Aligned ∧
          vectors.assemble =
            [⟨1, 1, 5, ⟨1, []⟩, [], []⟩, ⟨2, 1, 5, ⟨1, [⟨1, 2, [7]⟩]⟩, [], [1]⟩] :=
  ⟨(decode_encodeMessage (fun _ => false) _).1 _ rfl,
    (decode_encodeMessage (fun _ => false) _).2.1 _ rfl,
    (decode_encodeMessage (fun _ => false) _).2.2.1 _ rfl,
    (decode_encodeMessage (fun _ => false) _).2.2.2 ⟨_⟩ rfl⟩

end VotingSystem.Protos
