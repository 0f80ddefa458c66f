import VotingSystem.Protos.RoundTrip

namespace VotingSystem.Protos

open VotingSystem.Data VotingSystem.Wire

/-! Decoding the elections of a response, as `ElectionsDecodeFunc` does. -/

def decodeVarint (bytes : Bytes) : Option (Nat × Bytes) := do
  let (raw, rest) ← takeVarint bytes
  if raw.length ≤ 10 then some (varintValue raw % 2 ^ 64, rest) else none

/-- The callback of a packed field runs until nothing is left, and at least
once. -/
def decodeVarints : (fuel : Nat) → Bytes → Option (List Nat)
  | 0, _ => none
  | fuel + 1, bytes => do
      let (value, rest) ← decodeVarint bytes
      if rest = [] then
        some [value]
      else
        let values ← decodeVarints fuel rest
        some (value :: values)

/-- `IntArrayDecodeFunc`. -/
def intArray? (record : Record) : Option (List Int32) :=
  match record.wireType with
  | .lengthDelimited =>
      (decodeVarints record.payload.length record.payload).map (List.map Int32.ofNat)
  | _ => (decodeVarint record.payload).map fun (value, _) => [Int32.ofNat value]

namespace Candidate

def default : Candidate := ⟨0, [], []⟩

def field (candidate : Candidate) (record : Record) : Option Candidate :=
  match record.number with
  | 1 => record.int32?.map fun id => { candidate with id := id }
  | 2 => some { candidate with firstName := record.payload }
  | 3 => some { candidate with lastName := record.payload }
  | _ => some candidate

/-- `StringDecodeFunc` keeps the terminating zero. -/
def received (candidate : Candidate) : Candidate :=
  { candidate with
    firstName := stringPayload candidate.firstName
    lastName := stringPayload candidate.lastName }

end Candidate

namespace TallyEntry

def default : TallyEntry := ⟨0, 0, [], [], 0⟩

def field (entry : TallyEntry) (record : Record) : Option TallyEntry :=
  match record.number with
  | 1 => record.int32?.map fun id => { entry with id := id }
  | 2 => record.int32?.map fun candidateId => { entry with candidateId := candidateId }
  | 3 => some { entry with encryptedValue := record.payload }
  | 4 => some { entry with encryptionR := record.payload }
  | 5 => record.int32?.map fun value => { entry with decryptedValue := value }
  | _ => some entry

end TallyEntry

namespace Tally

def push (tally : Tally) (entry : TallyEntry) : Tally :=
  { tally with tallyEntries := tally.tallyEntries ++ [entry] }

/-- `TallyEntriesDecodeFunc` appends one entry per occurrence. -/
def field (tally : Tally) (record : Record) : Option Tally :=
  match record.number with
  | 1 => record.int32?.map fun id => { tally with id := id }
  | 2 => record.bool?.map fun finalized => { tally with finalized := finalized }
  | 3 => (decodeMessage TallyEntry.field .default record.payload).map tally.push
  | _ => some tally

end Tally

namespace Election

def default : Election := ⟨0, 0, 0, false, false, .default, [], []⟩

def pushGroups (election : Election) (ids : List Int32) : Election :=
  { election with authorizedVoterGroupIds := election.authorizedVoterGroupIds ++ ids }

def pushCandidate (election : Election) (candidate : Candidate) : Election :=
  { election with candidates := election.candidates ++ [candidate] }

/-- `CandidatesDecodeFunc` appends one candidate per occurrence. -/
def field (election : Election) (record : Record) : Option Election :=
  match record.number with
  | 1 => record.int32?.map fun id => { election with id := id }
  | 2 => record.int32?.map fun startTime => { election with startTimeUtc := startTime }
  | 3 => record.int32?.map fun endTime => { election with endTimeUtc := endTime }
  | 4 => record.bool?.map fun enabled => { election with enabled := enabled }
  | 5 => record.bool?.map fun allow => { election with allowWriteIn := allow }
  | 6 => (submessage? Tally.field election.tally record).map
      fun tally => { election with tally := tally }
  | 7 => (intArray? record).map election.pushGroups
  | 8 => (decodeMessage Candidate.field .default record.payload).map election.pushCandidate
  | _ => some election

def received (election : Election) : Election :=
  { election with candidates := election.candidates.map Candidate.received }

end Election

namespace Elections

def default : Elections := ⟨[]⟩

def push (elections : Elections) (election : Election) : Elections :=
  ⟨elections.elections ++ [election]⟩

def field (elections : Elections) (record : Record) : Option Elections :=
  match record.number with
  | 1 => (decodeMessage Election.field .default record.payload).map elections.push
  | _ => some elections

def decode (bytes : Bytes) : Option Elections := decodeMessage field default bytes

end Elections

/-! Round trips. -/

theorem decodeVarint_int32 (number : Nat) (value : Int32) :
    (decodeVarint (Record.int32 number value).payload).map
      (fun decoded => Int32.ofNat decoded.1) = some value := by
  have hround := Record.int32?_int32 number value
  have hmod : (value.toInt % 2 ^ 64).toNat % 2 ^ 64 < 128 ^ (9 + 1) :=
    (Nat.mod_lt _ (by decide)).trans (by decide)
  have hlength := encodeVarint_length_le hmod
  have htake := takeVarint_encodeVarint ((value.toInt % 2 ^ 64).toNat % 2 ^ 64) []
  rw [List.append_nil] at htake
  simp only [Record.int32?, Record.uint64?, Record.int32, Record.uint64, if_true,
    Option.map_some] at hround
  simp only [decodeVarint, Record.int32, Record.uint64, htake, Option.bind_eq_bind,
    Option.bind_some, if_pos hlength, Option.map_some]
  exact hround

theorem intArray?_int32 (number : Nat) (value : Int32) :
    intArray? (.int32 number value) = some [value] := by
  have hvalue := decodeVarint_int32 number value
  have htype : (Record.int32 number value).wireType = .varint := rfl
  simp only [intArray?, htype]
  cases hdecode : decodeVarint (Record.int32 number value).payload with
  | none => simp [hdecode] at hvalue
  | some decoded => simpa [hdecode] using hvalue

theorem valid_map_int32 {number : Nat} (hpos : 0 < number) (hlt : number < 2 ^ 29)
    (values : List Int32) : ∀ record ∈ values.map (Record.int32 number), record.Valid := by
  intro record hrecord
  obtain ⟨value, _, rfl⟩ := List.mem_map.mp hrecord
  exact Record.uint64_valid hpos hlt _

namespace Candidate

theorem records_valid (candidate : Candidate) :
    ∀ record ∈ Message.records candidate, record.Valid := by
  apply valid_append
  · exact Record.optionalInt32_valid (by omega) (by omega) _
  · exact valid_bytes_list [(2, stringPayload candidate.firstName),
      (3, stringPayload candidate.lastName)] (by simp)

theorem decodeMessage_encode (candidate : Candidate) :
    decodeMessage field default (encode candidate) = some candidate.received := by
  rw [encode, decodeMessage_serialize field candidate.records_valid]
  have hid : field default (.int32 1 candidate.id) = some ⟨candidate.id, [], []⟩ := by
    simp [field, default]
  simp only [Message.records]
  rw [foldlM_optionalInt32 hid (fun hzero => by rw [hzero]; rfl)]
  rfl

end Candidate

namespace TallyEntry

theorem records_valid (entry : TallyEntry) :
    ∀ record ∈ Message.records entry, record.Valid := by
  apply valid_append
  · exact Record.optionalInt32_valid (by omega) (by omega) _
  · apply valid_append
    · exact Record.optionalInt32_valid (by omega) (by omega) _
    · apply valid_append
      · exact valid_bytes_list [(3, entry.encryptedValue), (4, entry.encryptionR)] (by simp)
      · exact Record.optionalInt32_valid (by omega) (by omega) _

theorem decodeMessage_encode (entry : TallyEntry) :
    decodeMessage field default (encode entry) = some entry := by
  rw [encode, decodeMessage_serialize field entry.records_valid]
  obtain ⟨id, candidateId, encryptedValue, encryptionR, decryptedValue⟩ := entry
  have hid : field default (.int32 1 id) = some ⟨id, 0, [], [], 0⟩ := by
    simp [field, default]
  have hcandidate : field ⟨id, 0, [], [], 0⟩ (.int32 2 candidateId) =
      some ⟨id, candidateId, [], [], 0⟩ := by
    simp [field]
  have hencrypted : field ⟨id, candidateId, [], [], 0⟩ (.bytes 3 encryptedValue) =
      some ⟨id, candidateId, encryptedValue, [], 0⟩ := rfl
  have hrandom : field ⟨id, candidateId, encryptedValue, [], 0⟩ (.bytes 4 encryptionR) =
      some ⟨id, candidateId, encryptedValue, encryptionR, 0⟩ := rfl
  have hdecrypted : field ⟨id, candidateId, encryptedValue, encryptionR, 0⟩
      (.int32 5 decryptedValue) =
        some ⟨id, candidateId, encryptedValue, encryptionR, decryptedValue⟩ := by
    simp [field]
  have hlast := foldlM_optionalInt32 hdecrypted (fun hzero => by rw [hzero]) []
  simp only [Message.records]
  rw [foldlM_optionalInt32 hid (fun hzero => by rw [hzero]; rfl),
    foldlM_optionalInt32 hcandidate (fun hzero => by rw [hzero]), List.cons_append,
    List.cons_append, List.nil_append, foldlM_record hencrypted, foldlM_record hrandom]
  rw [List.append_nil] at hlast
  exact hlast

end TallyEntry

namespace Tally

theorem records_valid (tally : Tally) :
    ∀ record ∈ Message.records tally, record.Valid := by
  apply valid_append
  · exact Record.optionalInt32_valid (by omega) (by omega) _
  · apply valid_append
    · exact Record.optionalBool_valid (by omega) (by omega) _
    · exact valid_map_bytes (by omega) (by omega) encode _

theorem field_entry (tally : Tally) (entry : TallyEntry) :
    field tally (.bytes 3 (encode entry)) = some (tally.push entry) := by
  simp [field, TallyEntry.decodeMessage_encode]

theorem foldl_push (tally : Tally) (entries : List TallyEntry) :
    entries.foldl push tally =
      { tally with tallyEntries := tally.tallyEntries ++ entries } := by
  induction entries generalizing tally with
  | nil => simp
  | cons entry entries ih => simp [ih, push]

theorem decodeMessage_encode (tally : Tally) :
    decodeMessage field default (encode tally) = some tally := by
  rw [encode, decodeMessage_serialize field tally.records_valid]
  obtain ⟨id, finalized, entries⟩ := tally
  have hid : field default (.int32 1 id) = some ⟨id, false, []⟩ := by
    simp [field, default]
  have hfinalized : field ⟨id, false, []⟩ (.bool 2 finalized) =
      some ⟨id, finalized, []⟩ := by
    simp [field]
  have hentries := foldlM_repeated (fun entry => .bytes 3 (encode entry))
    field_entry ⟨id, finalized, []⟩ entries []
  simp only [Message.records]
  rw [foldlM_optionalInt32 hid (fun hzero => by rw [hzero]; rfl),
    foldlM_optionalBool hfinalized (fun hfalse => by rw [hfalse])]
  rw [List.append_nil, foldl_push] at hentries
  exact hentries

end Tally

namespace Election

theorem records_valid (election : Election) :
    ∀ record ∈ Message.records election, record.Valid := by
  apply valid_append
  · exact Record.optionalInt32_valid (by omega) (by omega) _
  apply valid_append
  · exact Record.optionalInt32_valid (by omega) (by omega) _
  apply valid_append
  · exact Record.optionalInt32_valid (by omega) (by omega) _
  apply valid_append
  · exact Record.optionalBool_valid (by omega) (by omega) _
  apply valid_append
  · exact Record.optionalBool_valid (by omega) (by omega) _
  apply valid_append
  · exact valid_unless (by omega) (by omega) _
  apply valid_append
  · exact valid_map_int32 (by omega) (by omega) _
  · exact valid_map_bytes (by omega) (by omega) encode _

theorem field_group (election : Election) (id : Int32) :
    field election (.int32 7 id) = some (election.pushGroups [id]) := by
  simp [field, intArray?_int32]

theorem field_candidate (election : Election) (candidate : Candidate) :
    field election (.bytes 8 (encode candidate)) =
      some (election.pushCandidate candidate.received) := by
  simp [field, Candidate.decodeMessage_encode]

theorem foldl_pushGroups (election : Election) (ids : List Int32) :
    ids.foldl (fun election id => election.pushGroups [id]) election =
      election.pushGroups ids := by
  induction ids generalizing election with
  | nil => simp [pushGroups]
  | cons id ids ih =>
      rw [List.foldl_cons, ih]
      simp [pushGroups]

theorem foldl_pushCandidate (election : Election) (candidates : List Candidate) :
    candidates.foldl (fun election candidate => election.pushCandidate candidate.received)
        election =
      { election with
        candidates := election.candidates ++ candidates.map Candidate.received } := by
  induction candidates generalizing election with
  | nil => simp
  | cons candidate candidates ih =>
      rw [List.foldl_cons, ih]
      simp [pushCandidate]

/-- The fields after the scalars. -/
theorem foldlM_field_tail (election : Election) (tally : Tally) (ids : List Int32)
    (candidates : List Candidate) (hnone : election.tally = .default) :
    ((if tally = .default then [] else [Record.bytes 6 (encode tally)]) ++
        (ids.map (Record.int32 7) ++
          candidates.map fun candidate => Record.bytes 8 (encode candidate))).foldlM
            field election =
      some
        { election with
          tally := tally
          authorizedVoterGroupIds := election.authorizedVoterGroupIds ++ ids
          candidates := election.candidates ++ candidates.map Candidate.received } := by
  have hrest : ∀ start : Election,
      (ids.map (Record.int32 7) ++
        candidates.map fun candidate => Record.bytes 8 (encode candidate)).foldlM field start =
      some
        { start with
          authorizedVoterGroupIds := start.authorizedVoterGroupIds ++ ids
          candidates := start.candidates ++ candidates.map Candidate.received } := by
    intro start
    have hcandidates := foldlM_repeated (fun candidate => Record.bytes 8 (encode candidate))
      field_candidate (start.pushGroups ids) candidates []
    rw [List.append_nil, foldl_pushCandidate] at hcandidates
    rw [foldlM_repeated (Record.int32 7) field_group, foldl_pushGroups, hcandidates]
    rfl
  split
  · rename_i hdefault
    rw [List.nil_append, hrest, hdefault, ← hnone]
  · have htally : field election (.bytes 6 (encode tally)) =
        some { election with tally := tally } := by
      simp [field, submessage?, hnone, Tally.decodeMessage_encode]
    rw [List.singleton_append, foldlM_record htally, hrest]

theorem decodeMessage_encode (election : Election) :
    decodeMessage field default (encode election) = some election.received := by
  rw [encode, decodeMessage_serialize field election.records_valid]
  obtain ⟨id, startTime, endTime, enabled, allow, tally, ids, candidates⟩ := election
  have hid : field default (.int32 1 id) =
      some ⟨id, 0, 0, false, false, .default, [], []⟩ := by
    simp [field, default]
  have hstart : field ⟨id, 0, 0, false, false, .default, [], []⟩ (.int32 2 startTime) =
      some ⟨id, startTime, 0, false, false, .default, [], []⟩ := by
    simp [field]
  have hend : field ⟨id, startTime, 0, false, false, .default, [], []⟩ (.int32 3 endTime) =
      some ⟨id, startTime, endTime, false, false, .default, [], []⟩ := by
    simp [field]
  have henabled : field ⟨id, startTime, endTime, false, false, .default, [], []⟩
      (.bool 4 enabled) = some ⟨id, startTime, endTime, enabled, false, .default, [], []⟩ := by
    simp [field]
  have hallow : field ⟨id, startTime, endTime, enabled, false, .default, [], []⟩
      (.bool 5 allow) = some ⟨id, startTime, endTime, enabled, allow, .default, [], []⟩ := by
    simp [field]
  simp only [Message.records]
  rw [foldlM_optionalInt32 hid (fun hzero => by rw [hzero]; rfl),
    foldlM_optionalInt32 hstart (fun hzero => by rw [hzero]),
    foldlM_optionalInt32 hend (fun hzero => by rw [hzero]),
    foldlM_optionalBool henabled (fun hfalse => by rw [hfalse]),
    foldlM_optionalBool hallow (fun hfalse => by rw [hfalse]),
    foldlM_field_tail _ _ _ _ rfl]
  rfl

end Election

namespace Elections

theorem foldl_push (elections : Elections) (more : List Election) :
    more.foldl (fun elections election => elections.push election.received) elections =
      ⟨elections.elections ++ more.map Election.received⟩ := by
  induction more generalizing elections with
  | nil => simp
  | cons election more ih =>
      rw [List.foldl_cons, ih]
      simp [push]

@[simp] theorem decode_encode (elections : Elections) :
    decode (encode elections) = some ⟨elections.elections.map Election.received⟩ := by
  have hvalid : ∀ record ∈ Message.records elections, record.Valid :=
    valid_map_bytes (by omega) (by omega) encode elections.elections
  have hfield : ∀ state (election : Election), field state (.bytes 1 (encode election)) =
      some (state.push election.received) := by
    intro state election
    simp [field, Election.decodeMessage_encode]
  have hfold := foldlM_repeated (fun election => .bytes 1 (encode election)) hfield
    default elections.elections []
  rw [decode, encode, decodeMessage_serialize field hvalid]
  rw [List.append_nil, foldl_push] at hfold
  exact hfold

end Elections

end VotingSystem.Protos
