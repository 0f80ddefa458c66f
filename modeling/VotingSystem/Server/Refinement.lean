import VotingSystem.Data.Simulation
import VotingSystem.Server.BallotBoxView
import VotingSystem.Server.TallyRecord

namespace VotingSystem.Server

open VotingSystem.Data VotingSystem.Crypto VotingSystem.Protos VotingSystem.Storage
open VotingSystem.Spec

/-! The server, its clock and time refine the ballot box. -/

/-- What `paillierEnc` makes of a vote under a usable blinding factor. -/
def HonestlyEncrypted (key : KeyPair) (value : Bytes) : Prop :=
  ∃ blinded : BlindedVote, blinded.blinding.factor.Coprime key.modulus.n ∧
    blinded.ciphertext key = value

def HonestEntries (key : KeyPair) (ballot : EncryptedBallot) : Prop :=
  ∀ entry ∈ ballot.encryptedBallotEntries, HonestlyEncrypted key entry.encryptedValue

def HonestStore (key : KeyPair) (db : Database) : Prop :=
  ∀ entry ∈ db.castEncryptedBallotEntries.rows, HonestlyEncrypted key entry.encryptedValue

/-- Ballots are honestly encrypted. -/
def HonestEvent (key : KeyPair) (_ : TallyWorld) : TallyEvent → Prop
  | .check commandData _ _ =>
      ∀ ballot, EncryptedBallot.decode commandData = some ballot → HonestEntries key ballot
  | _ => True

/-- Ballots are honestly encrypted. A tick comes late enough, and when fewer than 256
ballots wait for it in each election. -/
def FaithfulEvent (key : KeyPair) (world : TallyWorld) : TallyEvent → Prop
  | .check commandData _ _ =>
      ∀ ballot, EncryptedBallot.decode commandData = some ballot → HonestEntries key ballot
  | .tick => SafeTick world .tick ∧
      ∀ electionId ∈ untallied world.db, (electionBallots world.db electionId).length < 256
  | _ => True

/-! The number that a tick computes for a candidate. -/

section Decrypt

variable {key : KeyPair} {config : Config}

theorem decryptEntry_blindedVote (hconfig : config.HoldsKey key) {blinded : BlindedVote}
    (hcoprime : blinded.blinding.factor.Coprime key.modulus.n) :
    decryptEntry config (blinded.ciphertext key) = blinded.vote := by
  rw [decryptEntry, hconfig.pub, hconfig.privP, hconfig.privQ]
  exact paillierDec_paillierEnc key.n_large key.n_lt blinded.vote hcoprime

theorem exists_blindedVotes {values : List Bytes}
    (hhonest : ∀ value ∈ values, HonestlyEncrypted key value) :
    ∃ votes : List BlindedVote, votes.map (BlindedVote.ciphertext key) = values ∧
      BlindedVote.Coprime key votes := by
  induction values with
  | nil => exact ⟨[], rfl, ⟨by simp⟩⟩
  | cons value values ih =>
      obtain ⟨blinded, hcoprime, hvalue⟩ := hhonest value (by simp)
      obtain ⟨votes, hvotes, hall⟩ := ih fun other hother => hhonest other (by simp [hother])
      refine ⟨blinded :: votes, by rw [List.map_cons, hvalue, hvotes], ⟨?_⟩⟩
      intro other hother
      rcases List.mem_cons.mp hother with rfl | hrest
      · exact hcoprime
      · exact hall.coprime other hrest

end Decrypt

/-! One election of a tick. -/

section Announce

variable {key : KeyPair} {config : Config} {db db' : Database} {electionId : Int}

theorem mem_electionBallots_iff_storedBallots {ballotId : Int} :
    storedBallots db electionId ballotId ↔
      ∃ ballot ∈ electionBallots db electionId, ballot.id = ballotId := by
  unfold storedBallots electionBallots
  constructor
  · intro hstored
    obtain ⟨ballot, hballot, helection, hid⟩ := hstored
    exact ⟨ballot, List.mem_filter.mpr ⟨hballot, by simpa using helection⟩, hid⟩
  · intro hexists
    obtain ⟨ballot, hballot, hid⟩ := hexists
    obtain ⟨hstored, helection⟩ := List.mem_filter.mp hballot
    exact ⟨ballot, hstored, by simpa using helection, hid⟩

theorem SoundStore.electionBallots_eq_nil (hsound : SoundStore config db)
    (hnone : tallySelection db electionId = []) : electionBallots db electionId = [] := by
  apply List.eq_nil_iff_forall_not_mem.mpr
  intro ballot hballot
  have hread := hsound.mem_readBallots.mpr
    (mem_electionBallots_iff_storedBallots.mpr ⟨ballot, hballot, rfl⟩)
  rw [readBallots, hnone] at hread
  cases hread

theorem SoundStore.hasBallot (hsound : SoundStore config db)
    {entry : CastEncryptedBallotEntryRow} (hentry : entry ∈ tallySelection db electionId) :
    HasBallot db electionId := by
  obtain ⟨ballot, hballot, helection, _⟩ :=
    hsound.mem_readBallots.mp (List.mem_map_of_mem hentry)
  exact ⟨ballot, hballot, helection⟩

theorem count_ballotBox_le (candidateId : Int) :
    (ballotBox config db).count electionId candidateId ≤
      (electionBallots db electionId).length := by
  rw [← @countP_election_ballotBox config db]
  apply List.countP_mono_left
  intro ballot _ hboth
  rw [Bool.and_eq_true] at hboth
  exact hboth.1

theorem tallyEntriesOf_insertTally_old {tallies : List CandidateTally} {tally : TallyRow}
    (htally : tally ∈ db.tallies.rows) :
    tallyEntriesOf (insertTally db electionId tallies) tally.id =
      tallyEntriesOf db tally.id := by
  have hlt : tally.id < db.tallies.nextval := db.tallies.keys_lt tally htally
  rw [tallyEntriesOf, insertTally_entries, List.filter_append]
  have hnone : ((serialRows (tallyEntryRow db.tallies.nextval) db.tallyEntries.nextval
      tallies).filter fun entry => entry.tallyId = tally.id) = [] := by
    apply List.filter_eq_nil_iff.mpr
    intro entry hentry
    obtain ⟨_, _, _, _, rfl⟩ := exists_of_mem_serialRows _ hentry
    rw [decide_eq_true_eq]
    exact hlt.ne'
  rw [hnone, List.append_nil, tallyEntriesOf]

theorem CurrentTallies.tallyEntriesOf_insertTally (hcurrent : CurrentTallies config db)
    (tallies : List CandidateTally) :
    tallyEntriesOf (insertTally db electionId tallies) db.tallies.nextval =
      serialRows (tallyEntryRow db.tallies.nextval) db.tallyEntries.nextval tallies := by
  rw [tallyEntriesOf, insertTally_entries, List.filter_append]
  have hnone : (db.tallyEntries.rows.filter fun entry =>
      entry.tallyId = db.tallies.nextval) = [] := by
    apply List.filter_eq_nil_iff.mpr
    intro entry hentry
    obtain ⟨tally, htally, _, _, _, heq⟩ := hcurrent entry hentry
    rw [heq, decide_eq_true_eq]
    exact (db.tallies.keys_lt tally htally).ne
  rw [hnone, List.nil_append, List.filter_eq_self]
  intro entry hentry
  obtain ⟨_, _, _, _, rfl⟩ := exists_of_mem_serialRows _ hentry
  simp [tallyEntryRow]

/-- The votes that the entries of a tally under computation stand for. -/
theorem announcedVotes_insertTally (hcurrent : CurrentTallies config db)
    (tallies : List CandidateTally) (candidateId : Int) :
    announcedVotes (insertTally db electionId tallies) db.tallies.nextval candidateId =
      ((tallies.filter fun tally => tally.candidateId = candidateId).map
        fun tally => tally.decryptedValue.toNat).sum := by
  rw [announcedVotes, hcurrent.tallyEntriesOf_insertTally]
  generalize db.tallyEntries.nextval = next
  induction tallies generalizing next with
  | nil => rfl
  | cons tally tallies ih =>
      rw [serialRows, List.filter_cons, List.filter_cons]
      by_cases hid : tally.candidateId = candidateId
      · simp only [tallyEntryRow, hid, decide_true, if_true, List.map_cons, List.sum_cons]
        rw [ih]
        simp
      · simp only [tallyEntryRow, hid, decide_false]
        exact ih _

/-- The ciphertexts that are summed for a candidate are votes of zero or one, one for each
ballot of the election, and as many ones as ballots that choose the candidate. -/
theorem SoundStore.exists_selectedVotes (hsound : SoundStore config db)
    (hconfig : config.HoldsKey key) (hhonest : HonestStore key db) {candidate : CandidateRow}
    (hcandidate : candidate ∈ db.candidates.rows) :
    ∃ votes : List BlindedVote,
      votes.map (BlindedVote.ciphertext key) =
          candidateSelection db candidate.electionId candidate.id ∧
        BlindedVote.Coprime key votes ∧ BlindedVote.Binary votes ∧
          BlindedVote.count votes =
              (ballotBox config db).count candidate.electionId candidate.id ∧
            votes.length = (electionBallots db candidate.electionId).length := by
  have hselection := candidateSelection_eq hcandidate
  have hselected : ∀ value ∈ candidateSelection db candidate.electionId candidate.id,
      ∃ entry ∈ db.castEncryptedBallotEntries.rows, entry.encryptedValue = value := by
    intro value hvalue
    rw [hselection] at hvalue
    obtain ⟨entry, hentry, rfl⟩ := List.mem_map.mp hvalue
    exact ⟨entry, List.mem_of_mem_filter hentry, rfl⟩
  have hencrypted : ∀ value ∈ candidateSelection db candidate.electionId candidate.id,
      HonestlyEncrypted key value := by
    intro value hvalue
    obtain ⟨entry, hentry, rfl⟩ := hselected value hvalue
    exact hhonest entry hentry
  obtain ⟨votes, hvotes, hcoprime⟩ := exists_blindedVotes hencrypted
  have hvote : ∀ blinded ∈ votes,
      decryptEntry config (blinded.ciphertext key) = blinded.vote := fun blinded hblinded =>
    decryptEntry_blindedVote hconfig (hcoprime.coprime blinded hblinded)
  have hbinary : BlindedVote.Binary votes := by
    refine ⟨fun blinded hblinded => ?_⟩
    have hmem : blinded.ciphertext key ∈
        candidateSelection db candidate.electionId candidate.id := by
      rw [← hvotes]
      exact List.mem_map_of_mem hblinded
    obtain ⟨entry, hentry, hvalue⟩ := hselected _ hmem
    obtain ⟨ballot, hballot, hid⟩ := hsound.entries entry hentry
    have hentryOf : entry ∈ entriesOf db ballot.id :=
      List.mem_filter.mpr ⟨hentry, by simp [hid]⟩
    rw [← hvote blinded hblinded, ← hvalue]
    exact (hsound.ballots ballot hballot).oneHot.zero_or_one _
      (List.mem_map.mpr ⟨entry, hentryOf, rfl⟩)
  refine ⟨votes, hvotes, hcoprime, hbinary, ?_, ?_⟩
  · have hcount : BlindedVote.count votes =
        (candidateSelection db candidate.electionId candidate.id).countP fun value =>
          decryptEntry config value = 1 := by
      rw [← hvotes, List.countP_map, BlindedVote.count, ← sum_map_indicator]
      apply congrArg List.sum
      apply List.map_congr_left
      intro blinded hblinded
      simp only [Function.comp_apply, hvote blinded hblinded]
      rcases hbinary.zero_or_one blinded hblinded with hzero | hone
      · rw [hzero]
        decide
      · rw [hone]
        decide
    rw [hcount, hsound.count_ballotBox hcandidate, hselection, List.countP_map]
    rfl
  · have hentries := hsound.candidate_entries hcandidate
    rw [List.countP_eq_length_filter, List.countP_eq_length_filter] at hentries
    rw [← List.length_map, hvotes, hselection, List.length_map, hentries]
    rfl

/-- What a tick decrypts for a candidate. -/
theorem decryptedValue_candidateTally (hconfig : config.HoldsKey key)
    (hsound : SoundStore config db) (hhonest : HonestStore key db)
    {candidate : CandidateRow} (hcandidate : candidate ∈ db.candidates.rows)
    (hlength : (electionBallots db candidate.electionId).length < 2 ^ 31) :
    (candidateTally config (candidate.id, candidateSelection db candidate.electionId
        candidate.id)).decryptedValue.toNat =
      (ballotBox config db).count candidate.electionId candidate.id % 256 := by
  obtain ⟨votes, hvotes, hcoprime, hbinary, hcount, hsame⟩ :=
    hsound.exists_selectedVotes hconfig hhonest hcandidate
  rw [← hsame] at hlength
  rw [← hcount, ← BlindedVote.tally_toNat hbinary hcoprime hlength, candidateTally,
    BlindedVote.tally, hvotes, hconfig.pub, hconfig.privP, hconfig.privQ]

/-- What `generateTally` announces is the count of the ballots. -/
theorem generateTally_announces (hconfig : config.HoldsKey key)
    (hsound : SoundStore config db) (hhonest : HonestStore key db)
    (hfew : (electionBallots db electionId).length < 256) {ctexts : Ciphertexts}
    (hgroup : groupCiphertexts (tallySelection db electionId) = some ctexts)
    (candidateId : Int) :
    (((ctexts.map (candidateTally config)).filter fun tally =>
        tally.candidateId = candidateId).map fun tally => tally.decryptedValue.toNat).sum =
      (ballotBox config db).count electionId candidateId := by
  rcases groupCiphertexts_tallySelection hgroup with
    ⟨hrows, rfl⟩ | ⟨candidate, hcandidate, rfl, hall, rfl⟩
  · have hzero := @count_ballotBox_le config db electionId candidateId
    rw [hsound.electionBallots_eq_nil hrows, List.length_nil] at hzero
    simpa using (Nat.le_zero.mp hzero).symm
  · by_cases heq : candidate.id = candidateId
    · subst heq
      have hvotes := decryptedValue_candidateTally hconfig hsound hhonest hcandidate
        (hfew.trans (by decide))
      rw [Nat.mod_eq_of_lt ((count_ballotBox_le _).trans_lt hfew)] at hvotes
      simpa [candidateTally] using hvotes
    · -- another candidate has no ballot, or the query would have selected it
      have hzero : (ballotBox config db).count candidate.electionId candidateId = 0 := by
        apply hsound.count_ballotBox_eq_zero
        intro hballot hmem
        rw [← hsound.mem_selected hballot] at hmem
        obtain ⟨row, hrow, hrowId⟩ := List.mem_map.mp hmem
        exact heq ((hall row hrow).symm.trans hrowId)
      rw [hzero]
      simp [candidateTally, heq]

theorem ballotBox_generateTally (hconfig : config.HoldsKey key)
    (hsound : SoundStore config db) (hhonest : HonestStore key db)
    (hcurrent : CurrentTallies config db)
    (hfew : (electionBallots db electionId).length < 256)
    (hgenerate : generateTally config db electionId = some db') :
    ballotBox config db' =
      { ballotBox config db with
        results := (ballotBox config db).results ++
          [⟨electionId, (ballotBox config db).count electionId⟩] } := by
  obtain ⟨ctexts, hgroup, _, rfl⟩ := generateTally_eq_some.mp hgenerate
  have hold : ∀ tally ∈ db.tallies.rows,
      announcedVotes (insertTally db electionId (ctexts.map (candidateTally config)))
        tally.id = announcedVotes db tally.id := by
    intro tally htally
    funext candidateId
    rw [announcedVotes, tallyEntriesOf_insertTally_old htally, announcedVotes]
  have hnew : announcedVotes
      (insertTally db electionId (ctexts.map (candidateTally config))) db.tallies.nextval =
        (ballotBox config db).count electionId := by
    funext candidateId
    rw [announcedVotes_insertTally hcurrent]
    exact generateTally_announces hconfig hsound hhonest hfew hgroup candidateId
  have hresults : (insertTally db electionId
      (ctexts.map (candidateTally config))).tallies.rows =
        db.tallies.rows ++ [⟨db.tallies.nextval, electionId⟩] := rfl
  simp only [ballotBox, hresults, List.map_append, List.map_singleton, hnew]
  congr 2
  apply List.map_congr_left
  intro tally htally
  rw [hold tally htally]

end Announce

/-! A run. -/

section Run

variable {key : KeyPair} {config : Config} {start : Database}

theorem HonestStore.insertBallot {db : Database} (hhonest : HonestStore key db)
    {pending : PendingBallot} (hpending : HonestEntries key pending.ballot) :
    HonestStore key (Server.insertBallot db pending) := by
  intro entry hentry
  rw [insertBallot_entries, List.mem_append] at hentry
  rcases hentry with hold | hnew
  · exact hhonest entry hold
  · obtain ⟨value, hvalue, _, _, rfl⟩ := exists_of_mem_serialRows _ hnew
    exact hpending value hvalue

theorem electionBallots_insertBallot {db : Database} {pending : PendingBallot}
    {electionId : Int} (hother : electionId ≠ pending.ballot.electionId.toInt) :
    electionBallots (insertBallot db pending) electionId = electionBallots db electionId := by
  rw [electionBallots, insertBallot_ballots, List.filter_append, electionBallots]
  simp [castEncryptedBallotRow, hother.symm]

theorem HonestStore.of_tallied {elections : List Int} {db db' : Database}
    (hhonest : HonestStore key db) (htallied : Tallied elections db db') :
    HonestStore key db' := by
  intro entry hentry
  rw [htallied.entries] at hentry
  exact hhonest entry hentry

theorem reaches_foldlM_generateTally (hconfig : config.HoldsKey key) {elections : List Int}
    {db db' : Database} (hsound : SoundStore config db) (hhonest : HonestStore key db)
    (hcurrent : CurrentTallies config db) (hnodup : elections.Nodup)
    (hfew : ∀ electionId ∈ elections, (electionBallots db electionId).length < 256)
    (hnew : ∀ electionId ∈ elections, ∀ tally ∈ db.tallies.rows,
      tally.electionId ≠ electionId)
    (hfold : elections.foldlM (generateTally config) db = some db') :
    Reaches (BallotBox.Step (MayVote start)) (ballotBox config db)
      (ballotBox config db') := by
  induction elections generalizing db with
  | nil =>
      cases hfold
      exact .refl
  | cons electionId elections ih =>
      rw [List.foldlM_cons] at hfold
      obtain ⟨middle, hfirst, hrest⟩ := Option.bind_eq_some_iff.mp hfold
      obtain ⟨hother, hnodup⟩ := List.nodup_cons.mp hnodup
      have htallied := generateTally_tallied hfirst
      have hmiddle := ballotBox_generateTally hconfig hsound hhonest hcurrent
        (hfew electionId (by simp)) hfirst
      have hopen : ¬(ballotBox config db).Announced electionId := by
        rw [ballotBox_announced]
        intro hexists
        obtain ⟨tally, htally, heq⟩ := hexists
        exact hnew electionId (by simp) tally htally heq
      have hannounce : BallotBox.Step (MayVote start) (ballotBox config db)
          (.announce electionId) (ballotBox config middle) := by
        rw [hmiddle]
        exact .announce _ _ hopen
      refine (Reaches.single hannounce).trans (ih (hsound.of_tallied htallied)
        (hhonest.of_tallied htallied) (hcurrent.generateTally hfirst) hnodup ?_
        (htallied.remaining_new hother hnew) hrest)
      intro other hmem
      rw [electionBallots, htallied.ballots]
      exact hfew other (by simp [hmem])

/-- What holds as long as the ballots are honest, with ticks at any time. -/
structure HonestWorld (key : KeyPair) (config : Config) (world : TallyWorld) : Prop
    extends SoundWorld config world where
  honest : HonestStore key world.db
  pending_honest : ∀ pending ∈ world.pending, HonestEntries key pending.ballot

namespace HonestWorld

theorem of_empty (hballots : start.castEncryptedBallots.rows = [])
    (hentries : start.castEncryptedBallotEntries.rows = []) (now : Int) :
    HonestWorld key config ⟨start, now, [], []⟩ where
  sound := .of_empty hballots hentries
  accepted := by simp
  honest := by simp [HonestStore, hentries]
  pending_honest := by simp

theorem step {world world' : TallyWorld} {event : TallyEvent}
    (hworld : HonestWorld key config world)
    (hstep : TallyStep config world event world') (hevent : HonestEvent key world event) :
    HonestWorld key config world' := by
  have hsound := hworld.toSoundWorld.step hstep
  cases hstep with
  | advance later hlater => exact ⟨hsound, hworld.honest, hworld.pending_honest⟩
  | check commandData commandSignature voterId pending hchecks =>
      refine ⟨hsound, hworld.honest, ?_⟩
      intro other hother
      rcases List.mem_cons.mp hother with rfl | hold
      · obtain ⟨haccepted, _, _, rfl, _⟩ := castBallotChecks_eq_ok.mp hchecks
        exact hevent other.ballot haccepted.decoded
      · exact hworld.pending_honest other hold
  | commit pending hpending =>
      exact ⟨hsound, hworld.honest.insertBallot (hworld.pending_honest pending hpending),
        fun other hother => hworld.pending_honest other (List.mem_of_mem_erase hother)⟩
  | tick db hgenerate =>
      exact ⟨hsound, hworld.honest.of_tallied (generateTallies_tallied hgenerate),
        hworld.pending_honest⟩

theorem run {first last : TallyWorld} (hfirst : HonestWorld key config first)
    (hrun : Reaches (Restricted (TallyStep config) (HonestEvent key)) first last) :
    HonestWorld key config last := by
  apply hrun.invariant hfirst
  intro source event target hsource hrestricted
  exact hsource.step hrestricted.1 hrestricted.2

end HonestWorld

theorem FaithfulEvent.honest {world : TallyWorld} {event : TallyEvent}
    (hevent : FaithfulEvent key world event) : HonestEvent key world event := by
  cases event with
  | advance later => exact trivial
  | check commandData commandSignature voterId => exact hevent
  | commit pending => exact trivial
  | tick => exact trivial

theorem FaithfulEvent.safeTick {world : TallyWorld} {event : TallyEvent}
    (hevent : FaithfulEvent key world event) : SafeTick world event := by
  cases event with
  | advance later => exact trivial
  | check commandData commandSignature voterId => exact trivial
  | commit pending => exact trivial
  | tick => exact hevent.1

/-- What holds in every state of a run of faithful events from `start`. -/
structure FaithfulWorld (key : KeyPair) (config : Config) (start : Database)
    (world : TallyWorld) : Prop
    extends RecordedWorld config world, HonestWorld key config world where
  setup : start.SameSetup world.db
  few : ∀ tally ∈ world.db.tallies.rows,
    (electionBallots world.db tally.electionId).length < 256

theorem FaithfulWorld.step (hconfig : config.HoldsKey key) {world world' : TallyWorld}
    {event : TallyEvent} (hworld : FaithfulWorld key config start world)
    (hstep : TallyStep config world event world') (hevent : FaithfulEvent key world event) :
    FaithfulWorld key config start world' ∧
      Reaches (BallotBox.Step (MayVote start)) (ballotBox config world.db)
        (ballotBox config world'.db) := by
  have hrecorded := hworld.toRecordedWorld.step hstep hevent.safeTick
  obtain ⟨_, hhonest, hpendings⟩ := hworld.toHonestWorld.step hstep hevent.honest
  cases hstep with
  | advance later hlater =>
      exact ⟨⟨hrecorded, hhonest, hpendings, hworld.setup, hworld.few⟩, .refl⟩
  | check commandData commandSignature voterId pending hchecks =>
      exact ⟨⟨hrecorded, hhonest, hpendings, hworld.setup, hworld.few⟩, .refl⟩
  | commit pending hpending =>
      have hsetup := hworld.setup.trans (insertBallot_sameSetup world.db pending)
      refine ⟨⟨hrecorded, hhonest, hpendings, hsetup, ?_⟩, ?_⟩
      · intro tally htally
        rw [electionBallots_insertBallot (hworld.open_pending pending hpending tally htally)]
        exact hworld.few tally htally
      rw [ballotBox_insertBallot]
      have hnew : castEncryptedBallotRow pending world.db.castEncryptedBallots.nextval ∈
          (insertBallot world.db pending).castEncryptedBallots.rows := by
        rw [insertBallot_ballots]
        simp
      refine .single (.cast _ _
        ((hrecorded.sound.ballots _ hnew).mayVote.of_sameSetup hsetup) ?_)
      rw [ballotBox_announced]
      intro hexists
      obtain ⟨tally, htally, heq⟩ := hexists
      exact hworld.open_pending pending hpending tally htally heq
  | tick db hgenerate =>
      have htallied := generateTallies_tallied hgenerate
      refine ⟨⟨hrecorded, hhonest, hpendings, hworld.setup.trans htallied.setup, ?_⟩,
        reaches_foldlM_generateTally hconfig hworld.sound hworld.honest hworld.current
          (untallied_nodup world.db) hevent.2
          (fun electionId hmem => (mem_untallied.mp hmem).2) hgenerate⟩
      intro tally htally
      rw [electionBallots, htallied.ballots]
      rcases htallied.mem_tallies.mp ⟨tally, htally, rfl⟩ with ⟨old, hold, hsame⟩ | hnew
      · rw [← hsame]
        exact hworld.few old hold
      · exact hevent.2 _ hnew

theorem faithful_simulation (hconfig : config.HoldsKey key) (start : Database) :
    Simulation (Restricted (TallyStep config) (FaithfulEvent key))
      (BallotBox.Step (MayVote start)) fun world box =>
        FaithfulWorld key config start world ∧ ballotBox config world.db = box :=
  .of_view fun hsource hstep => hsource.step hconfig hstep.1 hstep.2

theorem FaithfulWorld.of_empty (hballots : start.castEncryptedBallots.rows = [])
    (hentries : start.castEncryptedBallotEntries.rows = [])
    (htallies : start.tallies.rows = []) (htallyEntries : start.tallyEntries.rows = [])
    (now : Int) : FaithfulWorld key config start ⟨start, now, [], []⟩ where
  toRecordedWorld := .of_empty hballots hentries htallies htallyEntries now
  honest := by simp [HonestStore, hentries]
  pending_honest := by simp
  setup := .refl start
  few := by simp [htallies]

theorem ballotBox_of_empty (hballots : start.castEncryptedBallots.rows = [])
    (htallies : start.tallies.rows = []) : ballotBox config start = .empty := by
  rw [ballotBox, hballots, htallies]
  rfl

end Run

/-- The server with its clock refines the ballot box: every run of faithful events is a
run in which allowed ballots go into the box and results are announced once, after the
last ballot. -/
theorem server_refines_ballotBox (key : KeyPair) {config : Config}
    (hconfig : config.HoldsKey key) {start : Database}
    (hballots : start.castEncryptedBallots.rows = [])
    (hentries : start.castEncryptedBallotEntries.rows = [])
    (htallies : start.tallies.rows = []) (htallyEntries : start.tallyEntries.rows = [])
    {now : Int} {world : TallyWorld}
    (hrun : Reaches (Restricted (TallyStep config) (FaithfulEvent key))
      ⟨start, now, [], []⟩ world) :
    Reaches (BallotBox.Step (MayVote start)) .empty (ballotBox config world.db) := by
  have hinitial : FaithfulWorld key config start ⟨start, now, [], []⟩ :=
    .of_empty hballots hentries htallies htallyEntries now
  obtain ⟨box, hreaches, _, rfl⟩ :=
    (faithful_simulation hconfig start).reaches ⟨hinitial, rfl⟩ hrun
  rwa [ballotBox_of_empty hballots htallies] at hreaches

/-- Every tally counts each stored ballot of its election once, for the candidate whose
entry decrypts to one. -/
theorem faithful_tallies_exact (key : KeyPair) {config : Config}
    (hconfig : config.HoldsKey key) {start : Database}
    (hballots : start.castEncryptedBallots.rows = [])
    (hentries : start.castEncryptedBallotEntries.rows = [])
    (htallies : start.tallies.rows = []) (htallyEntries : start.tallyEntries.rows = [])
    {now : Int} {world : TallyWorld}
    (hrun : Reaches (Restricted (TallyStep config) (FaithfulEvent key))
      ⟨start, now, [], []⟩ world)
    {tally : TallyRow} (htally : tally ∈ world.db.tallies.rows) :
    (∀ candidateId, announcedVotes world.db tally.id candidateId =
      votesFor config world.db tally.electionId candidateId) ∧
    ((candidateIds start tally.electionId).map (announcedVotes world.db tally.id)).sum =
      (electionBallots world.db tally.electionId).length := by
  have hinitial : FaithfulWorld key config start ⟨start, now, [], []⟩ :=
    .of_empty hballots hentries htallies htallyEntries now
  have hempty : BallotBox.Sound (MayVote start) (ballotBox config start) := by
    rw [ballotBox_of_empty hballots htallies]
    exact .empty
  obtain ⟨box, hsound, _, rfl⟩ := (faithful_simulation hconfig start).transfers
    ⟨hinitial, rfl⟩ hempty (fun hsource hstep => hsource.step hstep) hrun
  have hfinal := hsound.final ⟨tally.electionId, announcedVotes world.db tally.id⟩
    (List.mem_map.mpr ⟨tally, htally, rfl⟩)
  simp only at hfinal
  rw [hfinal]
  constructor
  · exact count_ballotBox_eq_votesFor tally.electionId
  · rw [BallotBox.sum_count (candidateIds_nodup start tally.electionId),
      countP_election_ballotBox]
    intro ballot hballot helection
    rw [← helection]
    exact (hsound.allowed ballot hballot).candidate

/-- However many ballots there are, a stored tally entry is the number of ballots for its
candidate modulo 256. -/
theorem announced_votes_wrap (key : KeyPair) {config : Config}
    (hconfig : config.HoldsKey key) {start : Database}
    (hballots : start.castEncryptedBallots.rows = [])
    (hentries : start.castEncryptedBallotEntries.rows = [])
    (htallies : start.tallies.rows = []) (htallyEntries : start.tallyEntries.rows = [])
    {now : Int} {world : TallyWorld}
    (hrun : Reaches (Restricted (TallyStep config) fun source event =>
      HonestEvent key source event ∧ SafeTick source event) ⟨start, now, [], []⟩ world)
    {entry : TallyEntryRow} (hentry : entry ∈ world.db.tallyEntries.rows) :
    ∃ tally ∈ world.db.tallies.rows, tally.id = entry.tallyId ∧
      ((electionBallots world.db tally.electionId).length < 2 ^ 31 →
        entry.decryptedValue.toNat =
          votesFor config world.db tally.electionId entry.candidateId % 256) := by
  have hrecorded := (RecordedWorld.of_empty hballots hentries htallies htallyEntries now).run
    (hrun.weaken fun _ _ hevent => hevent.2)
  have hhonest := (HonestWorld.of_empty hballots hentries now).run
    (hrun.weaken fun _ _ hevent => hevent.1)
  obtain ⟨tally, htally, candidate, hcandidate, helection, heq⟩ :=
    hrecorded.current entry hentry
  refine ⟨tally, htally, by rw [heq]; rfl, fun hlength => ?_⟩
  rw [← helection] at hlength
  have hvotes := decryptedValue_candidateTally hconfig hhonest.sound hhonest.honest
    hcandidate hlength
  rw [count_ballotBox_eq_votesFor, helection] at hvotes
  rw [heq]
  exact hvotes

/-! An election of one ballot. -/

theorem honestlyEncrypted_vote (key : KeyPair) :
    HonestlyEncrypted key (ciphertextBytes (key.modulus.encrypt (2 ^ 56) 1)) := by
  refine ⟨⟨1, .drawn 1⟩, Nat.coprime_one_left _, ?_⟩
  rw [BlindedVote.ciphertext, paillierEnc_eq key.n_lt, encodedPlaintext_one,
    PaillierLib.Blinding.factor]

theorem honestEntries_referencePending :
    HonestEntries SmallElection.reference.key (SmallElection.referencePending []).ballot := by
  have hvote := honestlyEncrypted_vote SmallElection.reference.key
  simpa only [HonestEntries, SmallElection.referencePending, SmallElection.pending,
    SmallElection.ballot, List.mem_singleton, forall_eq] using hvote

theorem faithful_votedWorld :
    Reaches (Restricted (TallyStep SmallElection.reference.config)
        (FaithfulEvent SmallElection.reference.key))
      ⟨SmallElection.reference.database, 5, [], []⟩ (votedWorld 11) := by
  refine reaches_votedWorld ?_ (fun _ _ => trivial) fun _ _ => trivial
  rintro world signature voterId ballot hdecode
  rw [SmallElection.reference_stores_vote.accepted.decoded] at hdecode
  cases hdecode
  exact honestEntries_referencePending

theorem exists_faithful_tick :
    ∃ db, generateTallies SmallElection.reference.config votedDatabase = some db ∧
      Reaches (Restricted (TallyStep SmallElection.reference.config)
          (FaithfulEvent SmallElection.reference.key))
        ⟨SmallElection.reference.database, 5, [], []⟩
        ⟨db, 11, [], [(1, readBallots votedDatabase 1)]⟩ := by
  obtain ⟨db, hgenerate⟩ := exists_generateTallies_voted
  refine ⟨db, hgenerate, ?_⟩
  have htick := @TallyStep.tick SmallElection.reference.config (votedWorld 11) db hgenerate
  refine .tail faithful_votedWorld ⟨htick, fun electionId _ => ⟨?_, by simp [votedWorld]⟩, ?_⟩
  · intro election helection _
    rw [List.mem_singleton.mp helection]
    decide
  · intro electionId _
    have hone : votedDatabase.castEncryptedBallots.rows.length = 1 := rfl
    have hle := List.length_filter_le (fun ballot : CastEncryptedBallotRow =>
      decide (ballot.electionId = electionId)) votedDatabase.castEncryptedBallots.rows
    rw [hone] at hle
    exact hle.trans_lt (by decide)

theorem server_refines_ballotBox_voted :
    ∃ db, generateTallies SmallElection.reference.config votedDatabase = some db ∧
      Reaches (BallotBox.Step (MayVote SmallElection.reference.database)) .empty
        (ballotBox SmallElection.reference.config db) := by
  obtain ⟨db, hgenerate, hrun⟩ := exists_faithful_tick
  exact ⟨db, hgenerate, server_refines_ballotBox SmallElection.reference.key
    SmallElection.reference.config_holdsKey rfl rfl rfl rfl hrun⟩

theorem faithful_tallies_exact_voted :
    ∃ db, generateTallies SmallElection.reference.config votedDatabase = some db ∧
      ∃ tally ∈ db.tallies.rows,
        (∀ candidateId, announcedVotes db tally.id candidateId =
          votesFor SmallElection.reference.config db tally.electionId candidateId) ∧
        ((candidateIds SmallElection.reference.database tally.electionId).map
            (announcedVotes db tally.id)).sum =
          (electionBallots db tally.electionId).length := by
  obtain ⟨db, hgenerate, hrun⟩ := exists_faithful_tick
  have htallied := (generateTallies_tallied hgenerate).mem_tallies.mpr
    (.inr (List.mem_singleton.mpr rfl) : _ ∨ (1 : Int) ∈ untallied votedDatabase)
  obtain ⟨tally, htally, _⟩ := htallied
  exact ⟨db, hgenerate, tally, htally, faithful_tallies_exact SmallElection.reference.key
    SmallElection.reference.config_holdsKey rfl rfl rfl rfl hrun htally⟩

theorem exists_tallyEntry_voted {db : Database}
    (hgenerate : generateTallies SmallElection.reference.config votedDatabase = some db) :
    ∃ entry, entry ∈ db.tallyEntries.rows := by
  have hsound := (SoundStore.of_empty SmallElection.reference.database_ballots
    SmallElection.reference.database_entries).run votedDatabase_reached
  have hballots : ∀ electionId ∈ untallied votedDatabase,
      HasBallot votedDatabase electionId := by
    intro electionId hmem
    rw [List.mem_singleton.mp (hmem : electionId ∈ [1])]
    exact ⟨castEncryptedBallotRow (SmallElection.referencePending []) 1,
      List.mem_singleton.mpr rfl, rfl⟩
  have hcomplete := (CompleteTallies.of_empty rfl rfl).foldlM_generateTally hsound
    (untallied_nodup votedDatabase) hballots
    (fun electionId hmem => (mem_untallied.mp hmem).2) hgenerate
  obtain ⟨tally, htally, _⟩ := (generateTallies_tallied hgenerate).mem_tallies.mpr
    (.inr (List.mem_singleton.mpr rfl) : _ ∨ (1 : Int) ∈ untallied votedDatabase)
  obtain ⟨hsome, hperm⟩ := hcomplete.candidates tally htally
  have hentries : tallyEntriesOf db tally.id ≠ [] := by
    intro hnil
    rw [hnil, List.map_nil] at hperm
    exact hsome hperm.nil_eq.symm
  obtain ⟨entry, hentry⟩ := List.exists_mem_of_ne_nil _ hentries
  exact ⟨entry, (List.mem_filter.mp hentry).1⟩

theorem announced_votes_wrap_voted :
    ∃ db, generateTallies SmallElection.reference.config votedDatabase = some db ∧
      ∃ entry ∈ db.tallyEntries.rows, ∃ tally ∈ db.tallies.rows, tally.id = entry.tallyId ∧
        ((electionBallots db tally.electionId).length < 2 ^ 31 →
          entry.decryptedValue.toNat = votesFor SmallElection.reference.config db
            tally.electionId entry.candidateId % 256) := by
  obtain ⟨db, hgenerate, hrun⟩ := exists_faithful_tick
  obtain ⟨entry, hentry⟩ := exists_tallyEntry_voted hgenerate
  have htimely := hrun.weaken fun _ _ hevent =>
    And.intro (FaithfulEvent.honest hevent) (FaithfulEvent.safeTick hevent)
  exact ⟨db, hgenerate, entry, hentry, announced_votes_wrap SmallElection.reference.key
    SmallElection.reference.config_holdsKey rfl rfl rfl rfl htimely hentry⟩

end VotingSystem.Server
