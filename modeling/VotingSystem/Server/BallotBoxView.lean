import VotingSystem.Server.BallotValidity
import VotingSystem.Server.FinalTallies
import VotingSystem.Spec.BallotBox

namespace VotingSystem.Server

open VotingSystem.Data VotingSystem.Crypto VotingSystem.Protos VotingSystem.Storage
open VotingSystem.Spec

/-! The tables of the server as a ballot box. -/

section View

variable (config : Config) (db : Database)

/-- The candidate whose entry decrypts to one. -/
def chosenCandidate (ballotId : Int) : Int :=
  (((entriesOf db ballotId).find? fun entry =>
    decryptEntry config entry.encryptedValue = 1).map
      CastEncryptedBallotEntryRow.candidateId).getD 0

/-- The stored ballots of an election that choose a candidate. -/
def votesFor (electionId candidateId : Int) : Nat :=
  (electionBallots db electionId).countP fun ballot =>
    chosenCandidate config db ballot.id = candidateId

def boxBallot (row : CastEncryptedBallotRow) : Ballot Int Int Int Int where
  voter := row.voterId
  election := row.electionId
  candidate := chosenCandidate config db row.id
  castAt := row.castAt

/-- What the entries of a tally say of a candidate. -/
def announcedVotes (tallyId candidateId : Int) : Nat :=
  (((tallyEntriesOf db tallyId).filter fun entry => entry.candidateId = candidateId).map
    fun entry => entry.decryptedValue.toNat).sum

def ballotBox : BallotBox Int Int Int Int where
  ballots := db.castEncryptedBallots.rows.map (boxBallot config db)
  results := db.tallies.rows.map fun tally => ⟨tally.electionId, announcedVotes db tally.id⟩

/-- The voting right that the setup tables give. -/
structure MayVote (ballot : Ballot Int Int Int Int) : Prop where
  in_time : ∃ election ∈ db.elections.rows, election.id = ballot.election ∧
    election.startTime ≤ ballot.castAt ∧ ballot.castAt ≤ election.endTime
  authorized : ∃ voter ∈ db.voters.rows, voter.id = ballot.voter ∧
    ∃ evg ∈ db.electionsVoterGroups.rows, evg.electionId = ballot.election ∧
      evg.voterGroupId = voter.voterGroupId
  candidate : ballot.candidate ∈ candidateIds db ballot.election

end View

section Ballots

variable {config : Config} {db db' : Database}

theorem MayVote.of_sameSetup (hsetup : db.SameSetup db') {ballot : Ballot Int Int Int Int}
    (hmay : MayVote db' ballot) : MayVote db ballot where
  in_time := by
    rw [← hsetup.elections]
    exact hmay.in_time
  authorized := by
    rw [← hsetup.voters, ← hsetup.electionsVoterGroups]
    exact hmay.authorized
  candidate := by
    rw [← candidateIds_of_sameSetup hsetup]
    exact hmay.candidate

theorem ballotBox_announced {electionId : Int} :
    (ballotBox config db).Announced electionId ↔
      ∃ tally ∈ db.tallies.rows, tally.electionId = electionId := by
  unfold BallotBox.Announced ballotBox
  simp

theorem SoundBallot.countP_one {ballot : CastEncryptedBallotRow}
    (hballot : SoundBallot config db ballot) :
    ((entriesOf db ballot.id).countP fun entry =>
      decryptEntry config entry.encryptedValue = 1) = 1 := by
  have hcount := hballot.oneHot.count_one
  rw [List.count, List.countP_map] at hcount
  exact hcount

/-- One entry of a ballot is the chosen one. -/
theorem SoundBallot.exists_chosen {ballot : CastEncryptedBallotRow}
    (hballot : SoundBallot config db ballot) :
    ∃ entry ∈ entriesOf db ballot.id,
      ((entriesOf db ballot.id).find? fun entry =>
        decryptEntry config entry.encryptedValue = 1) = some entry ∧
      chosenCandidate config db ballot.id = entry.candidateId := by
  have hpos : 0 < (entriesOf db ballot.id).countP fun entry =>
      decryptEntry config entry.encryptedValue = 1 := by
    rw [hballot.countP_one]
    exact Nat.one_pos
  have hsome : ((entriesOf db ballot.id).find? fun entry =>
      decryptEntry config entry.encryptedValue = 1).isSome :=
    List.find?_isSome.mpr (List.countP_pos_iff.mp hpos)
  obtain ⟨entry, hfind⟩ := Option.isSome_iff_exists.mp hsome
  refine ⟨entry, List.mem_of_find?_eq_some hfind, hfind, ?_⟩
  rw [chosenCandidate, hfind]
  rfl

theorem SoundBallot.chosenCandidate_mem {ballot : CastEncryptedBallotRow}
    (hballot : SoundBallot config db ballot) :
    chosenCandidate config db ballot.id ∈ candidateIds db ballot.electionId := by
  obtain ⟨entry, hentry, _, hchosen⟩ := hballot.exists_chosen
  rw [hchosen, ← hballot.candidates]
  exact List.mem_map_of_mem hentry

theorem SoundBallot.mayVote {ballot : CastEncryptedBallotRow}
    (hballot : SoundBallot config db ballot) : MayVote db (boxBallot config db ballot) where
  in_time := hballot.in_time
  authorized := hballot.authorized
  candidate := hballot.chosenCandidate_mem

/-- An entry of one for a candidate is the choice of the candidate. -/
theorem SoundBallot.countP_candidate {ballot : CastEncryptedBallotRow}
    (hballot : SoundBallot config db ballot) (candidateId : Int) :
    (((entriesOf db ballot.id).filter fun entry => entry.candidateId = candidateId).countP
        fun entry => decryptEntry config entry.encryptedValue = 1) =
      if chosenCandidate config db ballot.id = candidateId then 1 else 0 := by
  obtain ⟨entry, _, hfind, hchosen⟩ := hballot.exists_chosen
  have hunique := countP_and_of_unique hballot.countP_one fun entry =>
    decide (entry.candidateId = candidateId)
  rw [hfind] at hunique
  rw [List.countP_filter, hunique, hchosen]
  simp

theorem count_ballotBox_eq_votesFor (electionId candidateId : Int) :
    (ballotBox config db).count electionId candidateId =
      votesFor config db electionId candidateId := by
  simp only [BallotBox.count, ballotBox, votesFor, electionBallots, List.countP_map,
    List.countP_filter]
  apply List.countP_congr
  intro ballot _
  simp only [Function.comp_apply, boxBallot, Bool.and_eq_true]
  exact and_comm

theorem SoundStore.count_ballotBox (hsound : SoundStore config db)
    {candidate : CandidateRow} (hcandidate : candidate ∈ db.candidates.rows) :
    (ballotBox config db).count candidate.electionId candidate.id =
      (db.castEncryptedBallotEntries.rows.filter fun entry =>
        entry.candidateId = candidate.id).countP fun entry =>
          decryptEntry config entry.encryptedValue = 1 := by
  have hballots : ∀ ballot ∈ electionBallots db candidate.electionId,
      (((entriesOf db ballot.id).filter fun entry =>
          entry.candidateId = candidate.id).countP fun entry =>
            decryptEntry config entry.encryptedValue = 1) =
        if decide (chosenCandidate config db ballot.id = candidate.id) then 1 else 0 := by
    intro ballot hballot
    rw [(hsound.ballots ballot (List.mem_of_mem_filter hballot)).countP_candidate]
    simp
  have hsum := sum_map_indicator
    (fun ballot => decide (chosenCandidate config db ballot.id = candidate.id))
    (electionBallots db candidate.electionId)
  rw [← List.map_congr_left hballots] at hsum
  rw [← (hsound.ballot_entries_perm hcandidate).countP_eq, List.countP_flatMap]
  exact (count_ballotBox_eq_votesFor _ _).trans hsum.symm

theorem SoundStore.count_ballotBox_eq_zero (hsound : SoundStore config db)
    {electionId candidateId : Int}
    (hother : HasBallot db electionId → candidateId ∉ candidateIds db electionId) :
    (ballotBox config db).count electionId candidateId = 0 := by
  simp only [BallotBox.count, ballotBox, List.countP_map]
  apply List.countP_eq_zero.mpr
  intro ballot hballot hboth
  simp only [Function.comp_apply, boxBallot, Bool.and_eq_true] at hboth
  rw [← of_decide_eq_true hboth.1, ← of_decide_eq_true hboth.2] at hother
  exact hother ⟨ballot, hballot, rfl⟩ (hsound.ballots ballot hballot).chosenCandidate_mem

theorem countP_election_ballotBox (electionId : Int) :
    ((ballotBox config db).ballots.countP fun ballot => ballot.election = electionId) =
      (electionBallots db electionId).length := by
  rw [ballotBox, List.countP_map, electionBallots, ← List.countP_eq_length_filter]
  rfl

/-! A commit puts a ballot into the box. -/

theorem ballotBox_insertBallot (pending : PendingBallot) :
    ballotBox config (insertBallot db pending) =
      { ballotBox config db with
        ballots := (ballotBox config db).ballots ++
          [boxBallot config (insertBallot db pending)
            (castEncryptedBallotRow pending db.castEncryptedBallots.nextval)] } := by
  have hold : ∀ ballot ∈ db.castEncryptedBallots.rows,
      boxBallot config (insertBallot db pending) ballot = boxBallot config db ballot := by
    intro ballot hballot
    simp only [boxBallot, chosenCandidate, entriesOf_insertBallot_old hballot]
  simp only [ballotBox, insertBallot_ballots, List.map_append, List.map_singleton,
    insertBallot_tallies, List.map_congr_left hold]
  rfl

end Ballots

end VotingSystem.Server
