import VotingSystem.Server.FinalTallies
import VotingSystem.Server.Grouping

namespace VotingSystem.Server

open VotingSystem.Data VotingSystem.Crypto VotingSystem.Protos VotingSystem.Storage

/-! Stored tallies against the ballots that are stored later on. -/

/-- Every stored tally entry is what `generateTally` would compute again for its candidate
from the ballots that are stored now. -/
def CurrentTallies (config : Config) (db : Database) : Prop :=
  ∀ entry ∈ db.tallyEntries.rows,
    ∃ tally ∈ db.tallies.rows, ∃ candidate ∈ db.candidates.rows,
      candidate.electionId = tally.electionId ∧
        entry = tallyEntryRow tally.id
          (candidateTally config
            (candidate.id, candidateSelection db tally.electionId candidate.id)) entry.id

section Selection

variable {config : Config} {db db' : Database}

/-- A ballot for another election changes nothing in what is selected. -/
theorem tallySelection_insertBallot {pending : PendingBallot}
    (haccepted : Accepted config db pending) {electionId : Int}
    (hother : electionId ≠ pending.ballot.electionId.toInt) :
    tallySelection (insertBallot db pending) electionId = tallySelection db electionId := by
  rw [tallySelection_eq, tallySelection_eq, insertBallot_entries, List.filter_append]
  have hnone : ((newEntries db pending).filter fun entry =>
      (insertBallot db pending).candidates.rows.any fun candidate =>
        decide (candidate.id = entry.candidateId) &&
          decide (candidate.electionId = electionId)) = [] := by
    apply List.filter_eq_nil_iff.mpr
    intro entry hentry hany
    have hid : entry.candidateId ∈ candidateIds db pending.ballot.electionId.toInt := by
      rw [← haccepted.candidates, ← newEntries_candidateId db pending]
      exact List.mem_map_of_mem hentry
    obtain ⟨candidate, hcandidate, helection, hcandidateId⟩ := mem_candidateIds.mp hid
    obtain ⟨row, hrow, hboth⟩ := List.any_eq_true.mp hany
    rw [Bool.and_eq_true, decide_eq_true_eq, decide_eq_true_eq] at hboth
    have hsame : row = candidate :=
      db.candidates.eq_of_key_eq hrow hcandidate (hboth.1.trans hcandidateId.symm)
    rw [← hboth.2, hsame] at hother
    exact hother helection
  rw [hnone, List.append_nil]
  rfl

theorem candidateSelection_insertBallot {pending : PendingBallot}
    (haccepted : Accepted config db pending) {electionId : Int}
    (hother : electionId ≠ pending.ballot.electionId.toInt) (candidateId : Int) :
    candidateSelection (insertBallot db pending) electionId candidateId =
      candidateSelection db electionId candidateId := by
  rw [candidateSelection, tallySelection_insertBallot haccepted hother, candidateSelection]

theorem tallySelection_of_tallied {elections : List Int}
    (htallied : Tallied elections db db') (electionId : Int) :
    tallySelection db' electionId = tallySelection db electionId := by
  rw [tallySelection_eq, tallySelection_eq, htallied.entries, htallied.setup.candidates]

theorem candidateSelection_of_tallied {elections : List Int}
    (htallied : Tallied elections db db') (electionId candidateId : Int) :
    candidateSelection db' electionId candidateId =
      candidateSelection db electionId candidateId := by
  rw [candidateSelection, tallySelection_of_tallied htallied, candidateSelection]

theorem map_encryptedValue_tallySelection {electionId candidateId : Int}
    (hall : ∀ row ∈ tallySelection db electionId, row.candidateId = candidateId) :
    (tallySelection db electionId).map CastEncryptedBallotEntryRow.encryptedValue =
      candidateSelection db electionId candidateId := by
  rw [candidateSelection, List.filter_eq_self.mpr]
  intro row hrow
  simpa using hall row hrow

/-- What the loop of a completed tally leaves: nothing, or the ciphertexts of one
candidate of the election. -/
theorem groupCiphertexts_tallySelection {electionId : Int} {ctexts : Ciphertexts}
    (hgroup : groupCiphertexts (tallySelection db electionId) = some ctexts) :
    tallySelection db electionId = [] ∧ ctexts = [] ∨
      ∃ candidate ∈ db.candidates.rows, candidate.electionId = electionId ∧
        (∀ row ∈ tallySelection db electionId, row.candidateId = candidate.id) ∧
          ctexts = [(candidate.id, candidateSelection db electionId candidate.id)] := by
  cases hrows : tallySelection db electionId with
  | nil =>
      rw [hrows] at hgroup
      cases hgroup
      exact .inl ⟨rfl, rfl⟩
  | cons first rest =>
      have hfirst : first ∈ tallySelection db electionId := by simp [hrows]
      obtain ⟨_, candidate, hcandidate, hid, helection⟩ := (mem_tallySelection db).mp hfirst
      have hall : ∀ row ∈ tallySelection db electionId, row.candidateId = candidate.id :=
        fun row hrow =>
          (SameCandidate.of_groupCiphertexts hgroup row hrow first hfirst).trans hid.symm
      rw [groupCiphertexts_same (List.ne_nil_of_mem hfirst) hall,
        map_encryptedValue_tallySelection hall, Option.some.injEq] at hgroup
      rw [← hrows]
      exact .inr ⟨candidate, hcandidate, helection, hall, hgroup.symm⟩

end Selection

section Current

variable {config : Config} {db db' : Database}

theorem CurrentTallies.insertBallot (hcurrent : CurrentTallies config db)
    {pending : PendingBallot} (haccepted : Accepted config db pending)
    (hopen : ∀ tally ∈ db.tallies.rows,
      tally.electionId ≠ pending.ballot.electionId.toInt) :
    CurrentTallies config (Server.insertBallot db pending) := by
  intro entry hentry
  rw [insertBallot_tallyEntries] at hentry
  obtain ⟨tally, htally, candidate, hcandidate, helection, heq⟩ := hcurrent entry hentry
  refine ⟨tally, htally, candidate, hcandidate, helection, ?_⟩
  rw [candidateSelection_insertBallot haccepted (hopen tally htally)]
  exact heq

theorem CurrentTallies.generateTally (hcurrent : CurrentTallies config db) {electionId : Int}
    (hgenerate : generateTally config db electionId = some db') :
    CurrentTallies config db' := by
  have htallied := generateTally_tallied hgenerate
  obtain ⟨ctexts, hgroup, _, rfl⟩ := generateTally_eq_some.mp hgenerate
  intro entry hentry
  rw [insertTally_entries, List.mem_append] at hentry
  rcases hentry with hold | hnew
  · obtain ⟨tally, htally, candidate, hcandidate, helection, heq⟩ := hcurrent entry hold
    refine ⟨tally, by simp [insertTally, htally], candidate, hcandidate, helection, ?_⟩
    rw [candidateSelection_of_tallied htallied]
    exact heq
  · rcases groupCiphertexts_tallySelection hgroup with
      ⟨_, rfl⟩ | ⟨candidate, hcandidate, helection, _, rfl⟩
    · cases hnew
    · obtain ⟨made, hmade, id, _, rfl⟩ := exists_of_mem_serialRows _ hnew
      rw [List.map_singleton, List.mem_singleton] at hmade
      refine ⟨⟨db.tallies.nextval, electionId⟩, by simp [insertTally], candidate, hcandidate,
        helection, ?_⟩
      rw [candidateSelection_of_tallied htallied, hmade]
      rfl

theorem CurrentTallies.foldlM_generateTally {elections : List Int}
    (hcurrent : CurrentTallies config db)
    (hfold : elections.foldlM (Server.generateTally config) db = some db') :
    CurrentTallies config db' := by
  induction elections generalizing db with
  | nil =>
      cases hfold
      exact hcurrent
  | cons electionId elections ih =>
      rw [List.foldlM_cons] at hfold
      obtain ⟨middle, hfirst, hrest⟩ := Option.bind_eq_some_iff.mp hfold
      exact ih (hcurrent.generateTally hfirst) hrest

/-- Ticks that come late enough leave no tally behind the ballots. -/
structure RecordedWorld (config : Config) (world : TallyWorld) : Prop
    extends TimelyWorld config world where
  current : CurrentTallies config world.db

theorem RecordedWorld.step {world world' : TallyWorld} {event : TallyEvent}
    (hworld : RecordedWorld config world) (hstep : TallyStep config world event world')
    (hsafe : SafeTick world event) : RecordedWorld config world' := by
  cases hstep with
  | advance later hlater => exact ⟨hworld.toTimelyWorld.advance hlater, hworld.current⟩
  | check commandData commandSignature voterId pending hchecks =>
      exact ⟨hworld.toTimelyWorld.check hchecks, hworld.current⟩
  | commit pending hpending =>
      exact ⟨hworld.toTimelyWorld.commit hpending,
        hworld.current.insertBallot (hworld.accepted pending hpending)
          (hworld.open_pending pending hpending)⟩
  | tick db hgenerate =>
      exact ⟨hworld.toTimelyWorld.tick hgenerate hsafe,
        hworld.current.foldlM_generateTally hgenerate⟩

theorem RecordedWorld.of_empty {start : Database}
    (hballots : start.castEncryptedBallots.rows = [])
    (hentries : start.castEncryptedBallotEntries.rows = [])
    (htallies : start.tallies.rows = []) (htallyEntries : start.tallyEntries.rows = [])
    (now : Int) : RecordedWorld config ⟨start, now, [], []⟩ where
  sound := .of_empty hballots hentries
  accepted := by simp
  lossless := ⟨by simp [htallies], by simp [htallies], by simp⟩
  open_pending := by simp
  tallied := by simp
  current := by simp [CurrentTallies, htallyEntries]

theorem RecordedWorld.run {start world : TallyWorld} (hstart : RecordedWorld config start)
    (hrun : Reaches (Restricted (TallyStep config) SafeTick) start world) :
    RecordedWorld config world := by
  apply hrun.invariant hstart
  intro source event target hsource hrestricted
  exact hsource.step hrestricted.1 hrestricted.2

end Current

end VotingSystem.Server
