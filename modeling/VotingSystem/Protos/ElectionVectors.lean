import Mathlib.Data.List.ModifyLast
import VotingSystem.Protos.Elections

namespace VotingSystem.Protos

open VotingSystem.Data VotingSystem.Wire

/-! `ElectionsDecodeFunc` and the callbacks below it, over the four vectors they
fill. A candidate and a tally entry lie in a tuple with their strings or bytes. -/

section Last

variable {Element : Type} (field : Element → Record → Option Element)

/-- A field of a message that is decoded into the last element of a vector. -/
def onLast (values : List Element) (record : Record) : Option (List Element) :=
  match values.getLast? with
  | none => some values
  | some last => (field last record).map fun next => values.modifyLast fun _ => next

theorem onLast_concat (values : List Element) (last : Element) (record : Record) :
    onLast field (values ++ [last]) record =
      (field last record).map fun next => values ++ [next] := by
  simp [onLast, List.modifyLast_concat]

theorem decodeMessage_onLast (values : List Element) (last : Element) (bytes : Bytes) :
    decodeMessage (onLast field) (values ++ [last]) bytes =
      (decodeMessage field last bytes).map fun next => values ++ [next] :=
  decodeMessage_view (fun next => values ++ [next]) (onLast_concat field values) last bytes

end Last

def candidatesDecodeFunc (candidates : List Candidate) (payload : Bytes) :
    Option (List Candidate) :=
  decodeMessage (onLast Candidate.field) (candidates ++ [.default]) payload

def tallyEntriesDecodeFunc (entries : List TallyEntry) (payload : Bytes) :
    Option (List TallyEntry) :=
  decodeMessage (onLast TallyEntry.field) (entries ++ [.default]) payload

/-- The generated structure without its callbacks; the tally lies inside it. -/
structure ElectionStruct where
  id : Int32
  startTimeUtc : Int32
  endTimeUtc : Int32
  enabled : Bool
  allowWriteIn : Bool
  tallyId : Int32
  tallyFinalized : Bool
  deriving DecidableEq, Repr

structure ElectionVectors where
  first : List ElectionStruct
  second : List (List Int32)
  third : List (List Candidate)
  fourth : List (List TallyEntry)
  deriving DecidableEq, Repr

namespace ElectionVectors

def empty : ElectionVectors := ⟨[], [], [], []⟩

def grow (vectors : ElectionVectors) : ElectionVectors :=
  ⟨vectors.first ++ [⟨0, 0, 0, false, false, 0, false⟩], vectors.second ++ [[]],
    vectors.third ++ [[]], vectors.fourth ++ [[]]⟩

def modifyElection (vectors : ElectionVectors) (f : ElectionStruct → ElectionStruct) :
    ElectionVectors :=
  { vectors with first := vectors.first.modifyLast f }

def tallyField (vectors : ElectionVectors) (record : Record) : Option ElectionVectors :=
  match record.number with
  | 1 => record.int32?.map fun id =>
      vectors.modifyElection fun election => { election with tallyId := id }
  | 2 => record.bool?.map fun finalized =>
      vectors.modifyElection fun election => { election with tallyFinalized := finalized }
  | 3 => (tallyEntriesDecodeFunc (vectors.fourth.getLastD []) record.payload).map
      fun entries => { vectors with fourth := vectors.fourth.modifyLast fun _ => entries }
  | _ => some vectors

def field (vectors : ElectionVectors) (record : Record) : Option ElectionVectors :=
  match record.number with
  | 1 => record.int32?.map fun id =>
      vectors.modifyElection fun election => { election with id := id }
  | 2 => record.int32?.map fun startTime =>
      vectors.modifyElection fun election => { election with startTimeUtc := startTime }
  | 3 => record.int32?.map fun endTime =>
      vectors.modifyElection fun election => { election with endTimeUtc := endTime }
  | 4 => record.bool?.map fun enabled =>
      vectors.modifyElection fun election => { election with enabled := enabled }
  | 5 => record.bool?.map fun allow =>
      vectors.modifyElection fun election => { election with allowWriteIn := allow }
  | 6 => submessage? tallyField vectors record
  | 7 => (intArray? record).map fun ids =>
      { vectors with second := vectors.second.modifyLast fun groups => groups ++ ids }
  | 8 => (candidatesDecodeFunc (vectors.third.getLastD []) record.payload).map
      fun candidates =>
        { vectors with third := vectors.third.modifyLast fun _ => candidates }
  | _ => some vectors

def electionsDecodeFunc (vectors : ElectionVectors) (payload : Bytes) :
    Option ElectionVectors :=
  decodeMessage field vectors.grow payload

/-- The field of `Elections`. -/
def electionsField (vectors : ElectionVectors) (record : Record) : Option ElectionVectors :=
  match record.number with
  | 1 => vectors.electionsDecodeFunc record.payload
  | _ => some vectors

def decode (bytes : Bytes) : Option ElectionVectors :=
  decodeMessage electionsField empty bytes

def electionStruct (election : Election) : ElectionStruct where
  id := election.id
  startTimeUtc := election.startTimeUtc
  endTimeUtc := election.endTimeUtc
  enabled := election.enabled
  allowWriteIn := election.allowWriteIn
  tallyId := election.tally.id
  tallyFinalized := election.tally.finalized

def split (elections : List Election) : ElectionVectors where
  first := elections.map electionStruct
  second := elections.map Election.authorizedVoterGroupIds
  third := elections.map Election.candidates
  fourth := elections.map fun election => election.tally.tallyEntries

/-- The elections as they are read back, position by position. -/
def assemble (vectors : ElectionVectors) : List Election :=
  ((vectors.first.zip vectors.second).zip (vectors.third.zip vectors.fourth)).map
    fun ((election, groups), (candidates, entries)) =>
      { id := election.id
        startTimeUtc := election.startTimeUtc
        endTimeUtc := election.endTimeUtc
        enabled := election.enabled
        allowWriteIn := election.allowWriteIn
        tally := ⟨election.tallyId, election.tallyFinalized, entries⟩
        authorizedVoterGroupIds := groups
        candidates := candidates }

@[simp] theorem assemble_split (elections : List Election) :
    (split elections).assemble = elections := by
  simp [assemble, split, electionStruct, List.zip_map', Function.comp_def]

theorem grow_split (elections : List Election) :
    (split elections).grow = split (elections ++ [.default]) := by
  simp [grow, split, electionStruct, Election.default, Tally.default]

/-- A field of the last structure alone. -/
theorem modifyElection_split {Value : Type} (elections : List Election) {election : Election}
    (value : Option Value) {set : Value → ElectionStruct → ElectionStruct}
    {update : Value → Election}
    (hset : ∀ value, electionStruct (update value) = set value (electionStruct election) ∧
      (update value).authorizedVoterGroupIds = election.authorizedVoterGroupIds ∧
      (update value).candidates = election.candidates ∧
      (update value).tally.tallyEntries = election.tally.tallyEntries) :
    (value.map fun value =>
        (split (elections ++ [election])).modifyElection (set value)) =
      (value.map update).map fun election => split (elections ++ [election]) := by
  cases value with
  | none => rfl
  | some value =>
      obtain ⟨hstruct, hgroups, hcandidates, hentries⟩ := hset value
      simp [modifyElection, split, hstruct, hgroups, hcandidates, hentries,
        List.modifyLast_concat]

theorem tallyField_split (elections : List Election) (election : Election) (tally : Tally)
    (record : Record) :
    tallyField (split (elections ++ [{ election with tally := tally }])) record =
      (tally.field record).map fun tally =>
        split (elections ++ [{ election with tally := tally }]) := by
  obtain ⟨number, wireType, payload⟩ := record
  match number with
  | 0 => rfl
  | 1 =>
      simp [tallyField, Tally.field, modifyElection, split, electionStruct, Function.comp_def,
        List.modifyLast_concat]
  | 2 =>
      simp [tallyField, Tally.field, modifyElection, split, electionStruct, Function.comp_def,
        List.modifyLast_concat]
  | 3 =>
      simp [tallyField, Tally.field, Tally.push, tallyEntriesDecodeFunc, decodeMessage_onLast,
        split, electionStruct, Function.comp_def, List.modifyLast_concat]
  | number + 4 => rfl

/-- Every field of an election reaches the last slots of its own vectors. -/
theorem field_split (elections : List Election) (election : Election) (record : Record) :
    field (split (elections ++ [election])) record =
      (election.field record).map fun election => split (elections ++ [election]) := by
  obtain ⟨number, wireType, payload⟩ := record
  match number with
  | 0 => rfl
  | 1 => exact modifyElection_split elections _ fun id => ⟨rfl, rfl, rfl, rfl⟩
  | 2 => exact modifyElection_split elections _ fun startTime => ⟨rfl, rfl, rfl, rfl⟩
  | 3 => exact modifyElection_split elections _ fun endTime => ⟨rfl, rfl, rfl, rfl⟩
  | 4 => exact modifyElection_split elections _ fun enabled => ⟨rfl, rfl, rfl, rfl⟩
  | 5 => exact modifyElection_split elections _ fun allow => ⟨rfl, rfl, rfl, rfl⟩
  | 6 =>
      have htally := decodeMessage_view
        (fun tally => split (elections ++ [{ election with tally := tally }]))
        (tallyField_split elections election) election.tally payload
      cases wireType <;>
        simp [field, Election.field, submessage?, htally, Function.comp_def]
  | 7 =>
      simp [field, Election.field, Election.pushGroups, split, electionStruct,
        Function.comp_def, List.modifyLast_concat]
  | 8 =>
      simp [field, Election.field, Election.pushCandidate, candidatesDecodeFunc,
        decodeMessage_onLast, split, electionStruct, Function.comp_def, List.modifyLast_concat]
  | number + 9 => rfl

theorem electionsDecodeFunc_split (elections : List Election) (payload : Bytes) :
    electionsDecodeFunc (split elections) payload =
      (decodeMessage Election.field .default payload).map
        fun election => split (elections ++ [election]) := by
  rw [electionsDecodeFunc, grow_split]
  exact decodeMessage_view (fun election => split (elections ++ [election]))
    (field_split elections) _ _

theorem decode_eq (bytes : Bytes) :
    decode bytes = (Elections.decode bytes).map fun elections => split elections.elections := by
  apply decodeMessage_view (fun elections : Elections => split elections.elections) _
    .default bytes
  intro elections record
  obtain ⟨number, wireType, payload⟩ := record
  match number with
  | 0 => rfl
  | 1 =>
      simp [electionsField, Elections.field, Elections.push, electionsDecodeFunc_split,
        Function.comp_def]
  | number + 2 => rfl

end ElectionVectors

/-! Round trips. -/

theorem Candidate.received_ne (candidate : Candidate) : candidate.received ≠ candidate := by
  intro heq
  have hname := congrArg (fun candidate => candidate.firstName.length) heq
  simp [received, stringPayload] at hname

theorem Election.received_eq_iff (election : Election) :
    election.received = election ↔ election.candidates = [] := by
  constructor
  · intro heq
    cases hcandidates : election.candidates with
    | nil => rfl
    | cons candidate rest =>
        have hall := congrArg Election.candidates heq
        rw [received, hcandidates, List.map_cons] at hall
        exact absurd (List.cons.inj hall).1 candidate.received_ne
  · intro hnone
    obtain ⟨id, startTime, endTime, enabled, allow, tally, ids, candidates⟩ := election
    simp only at hnone
    rw [received, hnone, List.map_nil]

theorem map_received_eq_iff (elections : List Election) :
    elections.map Election.received = elections ↔
      ∀ election ∈ elections, election.candidates = [] := by
  induction elections with
  | nil => simp
  | cons election elections ih =>
      rw [List.map_cons, List.cons.injEq, ih, Election.received_eq_iff, List.forall_mem_cons]

/-- The decoded elections are the encoded ones with a zero byte after each name, so
they are equal exactly when there are no candidates. -/
theorem elections_decode_eq_iff (encodeFails : Bytes → Bool) (elections : List Election)
    (bytes : Bytes)
    (hencode : encodeMessage encodeFails (⟨elections⟩ : Elections) = some bytes) :
    ∃ vectors, ElectionVectors.decode bytes = some vectors ∧
      vectors.assemble = elections.map Election.received ∧
      ((vectors = .split elections ∧ vectors.assemble = elections) ↔
        ∀ election ∈ elections, election.candidates = []) := by
  refine ⟨.split (elections.map Election.received), ?_, ElectionVectors.assemble_split _, ?_⟩
  · rw [(encodeMessage_eq_some.mp hencode).2, ElectionVectors.decode_eq,
      Elections.decode_encode, Option.map_some]
  · rw [← map_received_eq_iff, ElectionVectors.assemble_split]
    constructor
    · rintro ⟨-, hsame⟩
      exact hsame
    · intro hsame
      exact ⟨congrArg ElectionVectors.split hsame, hsame⟩

/-- An election with one candidate whose names are empty. -/
def namelessElection : Election where
  id := 1
  startTimeUtc := 0
  endTimeUtc := 0
  enabled := false
  allowWriteIn := false
  tally := .default
  authorizedVoterGroupIds := [-1]
  candidates := [⟨1, [], []⟩]

theorem elections_decode_eq_iff_nameless :
    ∃ vectors,
      ElectionVectors.decode (encode (⟨[namelessElection]⟩ : Elections)) = some vectors ∧
        vectors.assemble = [namelessElection].map Election.received ∧
        ((vectors = .split [namelessElection] ∧ vectors.assemble = [namelessElection]) ↔
          ∀ election ∈ [namelessElection], election.candidates = []) :=
  elections_decode_eq_iff (fun _ => false) [namelessElection] _ rfl

theorem nameless_candidate_gets_names :
    ∃ vectors,
      ElectionVectors.decode (encode (⟨[namelessElection]⟩ : Elections)) = some vectors ∧
        vectors ≠ .split [namelessElection] ∧
        vectors.third = [[⟨1, [0], [0]⟩]] := by
  refine ⟨.split ([namelessElection].map Election.received), ?_, ?_, rfl⟩
  · rw [ElectionVectors.decode_eq, Elections.decode_encode, Option.map_some]
  · intro heq
    exact absurd (congrArg ElectionVectors.third heq) (by decide)

end VotingSystem.Protos
