import VotingSystem.Protos.Shared

namespace VotingSystem.Protos

open VotingSystem.Data VotingSystem.Wire

/-! Decoding what was encoded. Every message has valid records, and folding its
decoder over them rebuilds it from the default. -/

theorem encodeMessage_eq_some {α : Type} [Message α] {encodeFails : Bytes → Bool}
    {message : α} {bytes : Bytes} :
    encodeMessage encodeFails message = some bytes ↔
      encodeFails (encode message) = false ∧ bytes = encode message := by
  unfold encodeMessage
  cases hfails : encodeFails (encode message) with
  | false => simp [hfails, eq_comm]
  | true => simp [hfails]

theorem valid_append {front back : List Record}
    (hfront : ∀ record ∈ front, record.Valid) (hback : ∀ record ∈ back, record.Valid) :
    ∀ record ∈ front ++ back, record.Valid := by
  intro record hrecord
  rcases List.mem_append.mp hrecord with hrecord | hrecord
  · exact hfront record hrecord
  · exact hback record hrecord

theorem valid_map_bytes {Element : Type} {number : Nat} (hpos : 0 < number)
    (hlt : number < 2 ^ 29) (payload : Element → Bytes) (elements : List Element) :
    ∀ record ∈ elements.map fun element => Record.bytes number (payload element),
      record.Valid := by
  intro record hrecord
  obtain ⟨element, _, rfl⟩ := List.mem_map.mp hrecord
  exact Record.bytes_valid hpos hlt _

theorem valid_bytes_list (pairs : List (Nat × Bytes))
    (hnumbers : ∀ pair ∈ pairs, 0 < pair.1 ∧ pair.1 < 2 ^ 29) :
    ∀ record ∈ pairs.map fun pair => Record.bytes pair.1 pair.2, record.Valid := by
  intro record hrecord
  obtain ⟨pair, hpair, rfl⟩ := List.mem_map.mp hrecord
  exact Record.bytes_valid (hnumbers pair hpair).1 (hnumbers pair hpair).2 _

/-- A submessage that is left out when it is the default one. -/
theorem valid_unless {isDefault : Prop} [Decidable isDefault] {number : Nat}
    (hpos : 0 < number) (hlt : number < 2 ^ 29) (payload : Bytes) :
    ∀ record ∈ if isDefault then [] else [Record.bytes number payload], record.Valid := by
  intro record hrecord
  split at hrecord
  · simp at hrecord
  · rw [List.mem_singleton.mp hrecord]
    exact Record.bytes_valid hpos hlt _

namespace Command

theorem records_valid (command : Command) :
    ∀ record ∈ Message.records command, record.Valid := by
  apply valid_append
  · exact Record.optionalUint32_valid (by omega) (by omega) _
  · exact valid_bytes_list [(2, command.data), (3, command.pubkey),
      (4, command.signature)] (by simp)

@[simp] theorem decode_encode (command : Command) :
    decode (encode command) = some command := by
  rw [decode, encode, decodeMessage_serialize field command.records_valid]
  have htype : field default (.uint64 1 command.type.toNat) =
      some { default with type := command.type } := by
    simp [field]
  exact foldlM_optionalUint32 htype (fun hzero => by simp [hzero, default]) _

end Command

namespace Response

theorem records_valid (response : Response) :
    ∀ record ∈ Message.records response, record.Valid := by
  apply valid_append
  · exact Record.optionalUint32_valid (by omega) (by omega) _
  · exact valid_bytes_list [(2, response.data), (3, response.pubkey),
      (4, response.signature)] (by simp)

@[simp] theorem decode_encode (response : Response) :
    decode (encode response) = some response := by
  rw [decode, encode, decodeMessage_serialize field response.records_valid]
  have htype : field default (.uint64 1 response.type.toNat) =
      some { default with type := response.type } := by
    simp [field]
  exact foldlM_optionalUint32 htype (fun hzero => by simp [hzero, default]) _

end Response

namespace PaginationMetadata

theorem records_valid (pagination : PaginationMetadata) :
    ∀ record ∈ Message.records pagination, record.Valid :=
  Record.optionalInt32_valid (by omega) (by omega) _

theorem decodeMessage_encode (pagination : PaginationMetadata) :
    decodeMessage field default (encode pagination) = some pagination := by
  rw [encode, decodeMessage_serialize field pagination.records_valid]
  have hlast : field default (.int32 1 pagination.lastId) = some pagination := by
    simp [field]
  have hfold := foldlM_optionalInt32 hlast
    (fun hzero => by obtain ⟨lastId⟩ := pagination; simp_all [default]) []
  rwa [List.append_nil] at hfold

@[simp] theorem decode_encode (pagination : PaginationMetadata) :
    decode (encode pagination) = some pagination := pagination.decodeMessage_encode

end PaginationMetadata

namespace CastEncryptedBallotsRequest

theorem records_valid (request : CastEncryptedBallotsRequest) :
    ∀ record ∈ Message.records request, record.Valid := by
  apply valid_append
  · exact valid_unless (by omega) (by omega) _
  · exact Record.optionalInt32_valid (by omega) (by omega) _

@[simp] theorem decode_encode (request : CastEncryptedBallotsRequest) :
    decode (encode request) = some request := by
  rw [decode, encode, decodeMessage_serialize field request.records_valid]
  obtain ⟨pagination, electionId⟩ := request
  have helection : (Record.optionalInt32 2 electionId).foldlM field ⟨pagination, 0⟩ =
      some ⟨pagination, electionId⟩ := by
    have hfield : field ⟨pagination, 0⟩ (.int32 2 electionId) =
        some ⟨pagination, electionId⟩ := by
      simp [field]
    have hfold := foldlM_optionalInt32 hfield (fun hzero => by rw [hzero]) []
    rwa [List.append_nil] at hfold
  simp only [Message.records]
  split
  · rename_i hdefault
    subst hdefault
    exact helection
  · have hpagination : field default (.bytes 1 (encode pagination)) =
        some ⟨pagination, 0⟩ := by
      simp only [field, Record.bytes_number, submessage?, Record.bytes_wireType, if_true,
        Record.bytes_payload]
      rw [default, PaginationMetadata.decodeMessage_encode, Option.map_some]
    rw [List.singleton_append, foldlM_record hpagination]
    exact helection

end CastEncryptedBallotsRequest

namespace EncryptedBallotEntry

theorem records_valid (entry : EncryptedBallotEntry) :
    ∀ record ∈ Message.records entry, record.Valid := by
  apply valid_append
  · exact Record.optionalInt32_valid (by omega) (by omega) _
  · apply valid_append
    · exact Record.optionalInt32_valid (by omega) (by omega) _
    · exact valid_bytes_list [(3, entry.encryptedValue)] (by simp)

@[simp] theorem decodeMessage_encode (entry : EncryptedBallotEntry) :
    decodeMessage field default (encode entry) = some entry := by
  rw [encode, decodeMessage_serialize field entry.records_valid]
  obtain ⟨id, candidateId, encryptedValue⟩ := entry
  have hid : field default (.int32 1 id) = some ⟨id, 0, []⟩ := by
    simp [field, default]
  have hcandidate : field ⟨id, 0, []⟩ (.int32 2 candidateId) =
      some ⟨id, candidateId, []⟩ := by
    simp [field]
  simp only [Message.records]
  rw [foldlM_optionalInt32 hid (fun hzero => by rw [hzero]; rfl),
    foldlM_optionalInt32 hcandidate (fun hzero => by rw [hzero])]
  rfl

end EncryptedBallotEntry

namespace EncryptedBallot

theorem records_valid (ballot : EncryptedBallot) :
    ∀ record ∈ Message.records ballot, record.Valid := by
  apply valid_append
  · exact Record.optionalInt32_valid (by omega) (by omega) _
  · exact valid_map_bytes (by omega) (by omega) encode _

theorem field_entry (ballot : EncryptedBallot) (entry : EncryptedBallotEntry) :
    field ballot (.bytes 2 (encode entry)) = some (ballot.push entry) := by
  simp [field]

theorem foldl_push (ballot : EncryptedBallot) (entries : List EncryptedBallotEntry) :
    entries.foldl push ballot =
      { ballot with
        encryptedBallotEntries := ballot.encryptedBallotEntries ++ entries } := by
  induction entries generalizing ballot with
  | nil => simp
  | cons entry entries ih => simp [ih, push]

theorem decodeMessage_encode (ballot : EncryptedBallot) :
    decodeMessage field default (encode ballot) = some ballot := by
  rw [encode, decodeMessage_serialize field ballot.records_valid]
  obtain ⟨electionId, entries⟩ := ballot
  have helection : field default (.int32 1 electionId) = some ⟨electionId, []⟩ := by
    simp [field, default]
  have hentries := foldlM_repeated (fun entry => .bytes 2 (encode entry))
    field_entry ⟨electionId, []⟩ entries []
  simp only [Message.records]
  rw [foldlM_optionalInt32 helection (fun hzero => by rw [hzero]; rfl)]
  rw [List.append_nil, foldl_push] at hentries
  exact hentries

@[simp] theorem decode_encode (ballot : EncryptedBallot) :
    decode (encode ballot) = some ballot := ballot.decodeMessage_encode

end EncryptedBallot

namespace CastEncryptedBallot

theorem records_valid (ceb : CastEncryptedBallot) :
    ∀ record ∈ Message.records ceb, record.Valid := by
  apply valid_append
  · exact Record.optionalInt32_valid (by omega) (by omega) _
  · apply valid_append
    · exact Record.optionalInt32_valid (by omega) (by omega) _
    · apply valid_append
      · exact Record.optionalInt32_valid (by omega) (by omega) _
      · exact valid_bytes_list [(4, encode ceb.encryptedBallot),
          (5, ceb.castCommandData), (6, ceb.voterSignature)] (by simp)

@[simp] theorem decodeMessage_encode (ceb : CastEncryptedBallot) :
    decodeMessage field default (encode ceb) = some ceb := by
  rw [encode, decodeMessage_serialize field ceb.records_valid]
  obtain ⟨id, voterId, castAt, ballot, data, signature⟩ := ceb
  have hid : field default (.int32 1 id) = some ⟨id, 0, 0, .default, [], []⟩ := by
    simp [field, default]
  have hvoter : field ⟨id, 0, 0, .default, [], []⟩ (.int32 2 voterId) =
      some ⟨id, voterId, 0, .default, [], []⟩ := by
    simp [field]
  have hcast : field ⟨id, voterId, 0, .default, [], []⟩ (.int32 3 castAt) =
      some ⟨id, voterId, castAt, .default, [], []⟩ := by
    simp [field]
  have hballot : field ⟨id, voterId, castAt, .default, [], []⟩
      (.bytes 4 (encode ballot)) = some ⟨id, voterId, castAt, ballot, [], []⟩ := by
    simp [field, submessage?, EncryptedBallot.decodeMessage_encode]
  simp only [Message.records]
  rw [foldlM_optionalInt32 hid (fun hzero => by rw [hzero]; rfl),
    foldlM_optionalInt32 hvoter (fun hzero => by rw [hzero]),
    foldlM_optionalInt32 hcast (fun hzero => by rw [hzero]), foldlM_record hballot]
  rfl

end CastEncryptedBallot

namespace CastEncryptedBallots

theorem foldl_push (cebs : CastEncryptedBallots) (more : List CastEncryptedBallot) :
    more.foldl push cebs = ⟨cebs.castEncryptedBallots ++ more⟩ := by
  induction more generalizing cebs with
  | nil => simp
  | cons ceb more ih => simp [ih, push]

@[simp] theorem decode_encode (cebs : CastEncryptedBallots) :
    decode (encode cebs) = some cebs := by
  have hvalid : ∀ record ∈ Message.records cebs, record.Valid :=
    valid_map_bytes (by omega) (by omega) encode cebs.castEncryptedBallots
  have hfield : ∀ state ceb, field state (.bytes 1 (encode ceb)) =
      some (state.push ceb) := by
    intro state ceb
    simp [field]
  have hfold := foldlM_repeated (fun ceb => .bytes 1 (encode ceb)) hfield
    default cebs.castEncryptedBallots []
  rw [decode, encode, decodeMessage_serialize field hvalid]
  rw [List.append_nil, foldl_push] at hfold
  exact hfold

end CastEncryptedBallots

end VotingSystem.Protos
