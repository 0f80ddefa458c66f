import VotingSystem.Server.TallyGenerator

namespace VotingSystem.Server

open VotingSystem.Data VotingSystem.Storage

/-! What the first loop of `generateTally` collects for each candidate. -/

namespace Ciphertexts

variable (ctexts : Ciphertexts)

theorem get_cons (group : Int × List Bytes) (candidateId : Int) :
    get (group :: ctexts) candidateId =
      if candidateId = group.1 then group.2 else ctexts.get candidateId := by
  obtain ⟨groupId, others⟩ := group
  by_cases heq : candidateId = groupId
  · subst heq
    simp [get]
  · have hbeq : (candidateId == groupId) = false := by simpa using heq
    rw [if_neg heq, get, List.lookup_cons, hbeq, get]

theorem get_put (candidateId other : Int) (values : List Bytes) :
    (ctexts.put candidateId values).get other =
      if other = candidateId then values else ctexts.get other := by
  induction ctexts with
  | nil => rw [put, get_cons]
  | cons group rest ih =>
      obtain ⟨groupId, others⟩ := group
      by_cases hgroup : groupId = candidateId
      · subst hgroup
        by_cases hother : other = groupId <;> simp [put, get_cons, hother]
      · rw [put, if_neg hgroup, get_cons, get_cons, ih]
        by_cases hother : other = groupId
        · simp [hother, hgroup]
        · simp [hother]

end Ciphertexts

/-- The ciphertexts of a candidate among the rows, in the order of the rows. -/
def candidateValues (rows : List CastEncryptedBallotEntryRow) (candidateId : Int) :
    List Bytes :=
  (rows.filter fun entry => entry.candidateId = candidateId).map
    CastEncryptedBallotEntryRow.encryptedValue

/-- The loop stays inside its vectors and leaves every candidate that occurs with
its own ciphertexts. -/
def GroupsByCandidate (rows : List CastEncryptedBallotEntryRow) : Prop :=
  ∃ ctexts, groupCiphertexts rows = some ctexts ∧
    ∀ candidateId ∈ rows.map CastEncryptedBallotEntryRow.candidateId,
      ctexts.get candidateId = candidateValues rows candidateId

def SameCandidate (rows : List CastEncryptedBallotEntryRow) : Prop :=
  ∀ row ∈ rows, ∀ other ∈ rows, row.candidateId = other.candidateId

section Loop

variable {rows : List CastEncryptedBallotEntryRow} {row : CastEncryptedBallotEntryRow}
variable {ctexts grouped : Ciphertexts}

theorem candidateValues_append (candidateId : Int) :
    candidateValues (rows ++ [row]) candidateId =
      if row.candidateId = candidateId then
        candidateValues rows candidateId ++ [row.encryptedValue]
      else
        candidateValues rows candidateId := by
  by_cases heq : row.candidateId = candidateId <;> simp [candidateValues, heq]

/-- The row is written at its own position in the result, which must not lie beyond
the buffer just appended for its candidate. -/
theorem groupRow_eq_some {idx : Nat} :
    groupRow ctexts (row, idx) = some grouped ↔
      idx ≤ (ctexts.get row.candidateId).length ∧
        grouped = ctexts.put row.candidateId
          ((ctexts.get row.candidateId ++
            [List.replicate row.encryptedValue.length 0]).set idx row.encryptedValue) := by
  simp only [groupRow, List.length_append, List.length_singleton, Nat.lt_succ_iff]
  split
  · rename_i hinside
    simp [hinside, eq_comm]
  · rename_i houtside
    simp [houtside]

theorem groupCiphertexts_append :
    groupCiphertexts (rows ++ [row]) =
      (groupCiphertexts rows).bind fun ctexts => groupRow ctexts (row, rows.length) := by
  simp [groupCiphertexts, List.zipIdx_append]

theorem groupCiphertexts_length (hgroup : groupCiphertexts rows = some grouped)
    (candidateId : Int) :
    (grouped.get candidateId).length = (candidateValues rows candidateId).length := by
  induction rows using List.reverseRecOn generalizing grouped with
  | nil =>
      obtain rfl := Option.some.inj hgroup
      rfl
  | append_singleton rows row ih =>
      rw [groupCiphertexts_append] at hgroup
      obtain ⟨ctexts, hrows, hrow⟩ := Option.bind_eq_some_iff.mp hgroup
      obtain ⟨-, rfl⟩ := groupRow_eq_some.mp hrow
      rw [Ciphertexts.get_put, candidateValues_append]
      by_cases heq : candidateId = row.candidateId
      · subst heq
        simp [ih hrows]
      · rw [if_neg heq, if_neg (Ne.symm heq), ih hrows]

/-- As soon as two candidates occur, a row is written outside the vector of its
candidate. -/
theorem SameCandidate.of_groupCiphertexts (hgroup : groupCiphertexts rows = some grouped) :
    SameCandidate rows := by
  induction rows using List.reverseRecOn generalizing grouped with
  | nil =>
      intro row hrow
      contradiction
  | append_singleton rows row ih =>
      rw [groupCiphertexts_append] at hgroup
      obtain ⟨ctexts, hrows, hrow⟩ := Option.bind_eq_some_iff.mp hgroup
      have hinside := (groupRow_eq_some.mp hrow).1
      rw [groupCiphertexts_length hrows, candidateValues, List.length_map] at hinside
      have hall : ∀ other ∈ rows, other.candidateId = row.candidateId := by
        have hfull := List.filter_sublist.eq_of_length_le hinside
        intro other hother
        rw [← hfull] at hother
        simpa using List.of_mem_filter hother
      intro left hleft right hright
      rw [List.mem_append, List.mem_singleton] at hleft hright
      have hid : ∀ other, other ∈ rows ∨ other = row → other.candidateId = row.candidateId := by
        rintro other (hother | rfl)
        · exact hall other hother
        · rfl
      rw [hid left hleft, hid right hright]

/-- With one candidate the position in the result is the position in the vector. -/
theorem groupCiphertexts_same {candidateId : Int} (hrows : rows ≠ [])
    (hsame : ∀ row ∈ rows, row.candidateId = candidateId) :
    groupCiphertexts rows =
      some [(candidateId, rows.map CastEncryptedBallotEntryRow.encryptedValue)] := by
  induction rows using List.reverseRecOn with
  | nil => contradiction
  | append_singleton rows row ih =>
      have hrow : row.candidateId = candidateId := hsame row (by simp)
      rw [groupCiphertexts_append]
      by_cases hempty : rows = []
      · subst hempty hrow
        rfl
      · rw [ih hempty fun other hother => hsame other (by simp [hother]), Option.bind_some,
          groupRow_eq_some]
        simp [hrow, Ciphertexts.get_cons, Ciphertexts.put]

end Loop

theorem candidateValues_same {rows : List CastEncryptedBallotEntryRow} {candidateId : Int}
    (hsame : ∀ row ∈ rows, row.candidateId = candidateId) :
    candidateValues rows candidateId = rows.map CastEncryptedBallotEntryRow.encryptedValue := by
  rw [candidateValues, List.filter_eq_self.mpr]
  intro row hrow
  simpa using hsame row hrow

/-- The grouping is right exactly for the rows of at most one candidate. -/
theorem groupsByCandidate_iff (rows : List CastEncryptedBallotEntryRow) :
    GroupsByCandidate rows ↔ SameCandidate rows := by
  constructor
  · rintro ⟨ctexts, hgroup, -⟩
    exact .of_groupCiphertexts hgroup
  · intro hsame
    cases rows with
    | nil => exact ⟨[], rfl, by simp⟩
    | cons row rows =>
        have hid : ∀ other ∈ row :: rows, other.candidateId = row.candidateId :=
          fun other hother => hsame other hother row (by simp)
        refine ⟨_, groupCiphertexts_same (by simp) hid, ?_⟩
        intro candidateId hoccurs
        obtain ⟨other, hother, rfl⟩ := List.mem_map.mp hoccurs
        rw [hid other hother, candidateValues_same hid]
        simp [Ciphertexts.get_cons]

/-- Two candidates with a ballot entry each: the second one is written past the
only buffer of its vector. -/
theorem two_candidates_not_grouped :
    groupCiphertexts [⟨1, 1, 1, [7]⟩, ⟨2, 1, 2, [8]⟩] = none ∧
      ¬ GroupsByCandidate [⟨1, 1, 1, [7]⟩, ⟨2, 1, 2, [8]⟩] := by
  have hnone : groupCiphertexts [⟨1, 1, 1, [7]⟩, ⟨2, 1, 2, [8]⟩] = none := by decide
  refine ⟨hnone, ?_⟩
  rintro ⟨ctexts, hgroup, -⟩
  rw [hnone] at hgroup
  contradiction

end VotingSystem.Server
