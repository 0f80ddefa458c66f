import VotingSystem.Server.Refinement
import VotingSystem.Server.Secrecy

namespace VotingSystem.Server

open VotingSystem.Data VotingSystem.Crypto VotingSystem.Protos VotingSystem.Storage

/-! Which ticks come to their `commit`, and what becomes of the clock after one that
cannot. -/

section Selection

variable {config : Config} {db : Database} {electionId : Int}

/-- The rows of an election are those of one candidate as long as it has no ballot, and
afterwards if it has one candidate. -/
theorem SoundStore.sameCandidate_iff (hsound : SoundStore config db) (electionId : Int) :
    SameCandidate (tallySelection db electionId) ↔
      (HasBallot db electionId → (candidateIds db electionId).length = 1) := by
  constructor
  · intro hsame hballot
    have hnonempty := hsound.candidateIds_ne_nil hballot
    have hnodup := candidateIds_nodup db electionId
    have hequal : ∀ first ∈ candidateIds db electionId,
        ∀ second ∈ candidateIds db electionId, first = second := by
      intro first hfirst second hsecond
      rw [← hsound.mem_selected hballot] at hfirst hsecond
      obtain ⟨row, hrow, rfl⟩ := List.mem_map.mp hfirst
      obtain ⟨other, hother, rfl⟩ := List.mem_map.mp hsecond
      exact hsame row hrow other hother
    cases hids : candidateIds db electionId with
    | nil => exact absurd hids hnonempty
    | cons first rest =>
        cases rest with
        | nil => rfl
        | cons second rest =>
            rw [hids] at hequal hnodup
            have heq := hequal first (by simp) second (by simp)
            simp [heq] at hnodup
  · intro hone row hrow other hother
    have hballot := hsound.hasBallot hrow
    have hmem : ∀ entry ∈ tallySelection db electionId,
        entry.candidateId ∈ candidateIds db electionId := fun entry hentry =>
      (hsound.mem_selected hballot).mp (List.mem_map_of_mem hentry)
    obtain ⟨candidateId, hids⟩ := List.length_eq_one_iff.mp (hone hballot)
    have hrowId := hmem row hrow
    have hotherId := hmem other hother
    rw [hids, List.mem_singleton] at hrowId hotherId
    rw [hrowId, hotherId]

/-- Where rows of two candidates are selected, the loop over the elections does not get
past them. -/
theorem foldlM_generateTally_eq_none {elections : List Int} (hmem : electionId ∈ elections)
    (hmixed : ¬SameCandidate (tallySelection db electionId)) :
    elections.foldlM (generateTally config) db = none := by
  induction elections generalizing db with
  | nil => cases hmem
  | cons first rest ih =>
      rw [List.foldlM_cons]
      apply Option.bind_eq_none_iff.mpr
      intro middle hfirst
      rcases List.mem_cons.mp hmem with rfl | hrest
      · obtain ⟨ctexts, hgroup, _⟩ := generateTally_eq_some.mp hfirst
        exact absurd (SameCandidate.of_groupCiphertexts hgroup) hmixed
      · apply ih hrest
        rw [tallySelection_of_tallied (generateTally_tallied hfirst)]
        exact hmixed

end Selection

section Complete

variable {key : KeyPair} {config : Config} {db : Database}

theorem exists_generateTally (hconfig : config.HoldsKey key) (hsound : SoundStore config db)
    (hhonest : HonestStore key db) (hlength : db.castEncryptedBallots.rows.length < 2 ^ 31)
    {electionId : Int} (hsame : SameCandidate (tallySelection db electionId)) :
    ∃ db', generateTally config db electionId = some db' := by
  cases hrows : tallySelection db electionId with
  | nil =>
      refine ⟨_, generateTally_eq_some.mpr ⟨[], by rw [hrows]; rfl, ?_, rfl⟩⟩
      intro group hgroup
      cases hgroup
  | cons first rest =>
      have hfirst : first ∈ tallySelection db electionId := by simp [hrows]
      obtain ⟨_, candidate, hcandidate, hid, rfl⟩ := (mem_tallySelection db).mp hfirst
      have hall : ∀ row ∈ tallySelection db candidate.electionId,
          row.candidateId = candidate.id := fun row hrow =>
        (hsame row hrow first hfirst).trans hid.symm
      have hgroup := groupCiphertexts_same (List.ne_nil_of_mem hfirst) hall
      refine ⟨_, generateTally_eq_some.mpr ⟨_, hgroup, ?_, rfl⟩⟩
      intro group hmem
      rw [List.mem_singleton.mp hmem, map_encryptedValue_tallySelection hall,
        decryptedValue_candidateTally hconfig hsound hhonest hcandidate
          ((List.length_filter_le _ _).trans_lt hlength)]
      exact (Nat.mod_lt _ (by decide)).trans (by decide)

theorem exists_foldlM_generateTally (hconfig : config.HoldsKey key) {elections : List Int}
    (hsound : SoundStore config db) (hhonest : HonestStore key db)
    (hlength : db.castEncryptedBallots.rows.length < 2 ^ 31)
    (hsame : ∀ electionId ∈ elections, SameCandidate (tallySelection db electionId)) :
    ∃ db', elections.foldlM (generateTally config) db = some db' := by
  induction elections generalizing db with
  | nil => exact ⟨db, rfl⟩
  | cons first rest ih =>
      obtain ⟨middle, hfirst⟩ :=
        exists_generateTally hconfig hsound hhonest hlength (hsame first (by simp))
      have htallied := generateTally_tallied hfirst
      obtain ⟨db', hrest⟩ := ih (hsound.of_tallied htallied)
        (hhonest.of_tallied htallied) (by rwa [htallied.ballots])
        (by
          intro electionId hmem
          rw [tallySelection_of_tallied htallied]
          exact hsame electionId (by simp [hmem]))
      refine ⟨db', ?_⟩
      rw [List.foldlM_cons, hfirst]
      exact hrest

theorem exists_generateTallies_iff (hconfig : config.HoldsKey key)
    (hsound : SoundStore config db) (hhonest : HonestStore key db)
    (hlength : db.castEncryptedBallots.rows.length < 2 ^ 31) :
    (∃ db', generateTallies config db = some db') ↔
      ∀ electionId ∈ untallied db, HasBallot db electionId →
        (candidateIds db electionId).length = 1 := by
  constructor
  · intro hexists electionId hmem
    obtain ⟨db', hgenerate⟩ := hexists
    rw [← hsound.sameCandidate_iff]
    by_contra hmixed
    rw [generateTallies, foldlM_generateTally_eq_none hmem hmixed] at hgenerate
    cases hgenerate
  · intro hone
    apply exists_foldlM_generateTally hconfig hsound hhonest hlength
    intro electionId hmem
    exact (hsound.sameCandidate_iff electionId).mpr (hone electionId hmem)

end Complete

/-! Runs in which the ballots are honest, with ticks at any time. -/

/-- In every state that is reached with honest ballots, a tick completes exactly when no
election of several candidates waits for its tally with a ballot. -/
theorem tick_completes_iff (key : KeyPair) {config : Config} (hconfig : config.HoldsKey key)
    {start : Database} (hballots : start.castEncryptedBallots.rows = [])
    (hentries : start.castEncryptedBallotEntries.rows = []) {now : Int} {world : TallyWorld}
    (hrun : Reaches (Restricted (TallyStep config) (HonestEvent key)) ⟨start, now, [], []⟩
      world)
    (hlength : world.db.castEncryptedBallots.rows.length < 2 ^ 31) :
    (∃ world', TallyStep config world .tick world') ↔
      ∀ electionId ∈ untallied world.db, HasBallot world.db electionId →
        (candidateIds world.db electionId).length = 1 := by
  have hworld := (HonestWorld.of_empty hballots hentries now).run hrun
  rw [← exists_generateTallies_iff hconfig hworld.sound hworld.honest hlength]
  constructor
  · intro hexists
    obtain ⟨world', hstep⟩ := hexists
    cases hstep with
    | tick db hgenerate => exact ⟨db, hgenerate⟩
  · intro hexists
    obtain ⟨db, hgenerate⟩ := hexists
    exact ⟨_, .tick world db hgenerate⟩

theorem tick_completes_iff_voted :
    (∃ world', TallyStep SmallElection.reference.config (votedWorld 11) .tick world') ↔
      ∀ electionId ∈ untallied votedDatabase, HasBallot votedDatabase electionId →
        (candidateIds votedDatabase electionId).length = 1 := by
  have hhonest : Reaches (Restricted (TallyStep SmallElection.reference.config)
      (HonestEvent SmallElection.reference.key))
      ⟨SmallElection.reference.database, 5, [], []⟩ (votedWorld 11) :=
    faithful_votedWorld.weaken fun _ _ hfaithful => FaithfulEvent.honest hfaithful
  exact tick_completes_iff SmallElection.reference.key SmallElection.reference.config_holdsKey
    rfl rfl hhonest (by decide : [castEncryptedBallotRow
      (SmallElection.referencePending []) 1].length < 2 ^ 31)

/-! The clock after a ballot for an election of several candidates. -/

/-- An election that waits for its tally with a ballot and several candidates. -/
structure Stuck (electionId : Int) (db : Database) : Prop where
  untallied : electionId ∈ Server.untallied db
  ballot : HasBallot db electionId
  candidates : (candidateIds db electionId).length ≠ 1

structure StuckWorld (config : Config) (electionId : Int) (frozen : Database)
    (world : TallyWorld) : Prop extends SoundWorld config world where
  stuck : Stuck electionId world.db
  tallies : world.db.tallies = frozen.tallies
  tallyEntries : world.db.tallyEntries = frozen.tallyEntries

section Stuck

variable {config : Config} {electionId : Int}

theorem Stuck.generateTallies_eq_none {db : Database} (hstuck : Stuck electionId db)
    (hsound : SoundStore config db) : generateTallies config db = none := by
  apply foldlM_generateTally_eq_none hstuck.untallied
  rw [hsound.sameCandidate_iff]
  exact fun hone => hstuck.candidates (hone hstuck.ballot)

theorem Stuck.insertBallot {db : Database} (hstuck : Stuck electionId db)
    (pending : PendingBallot) : Stuck electionId (Server.insertBallot db pending) where
  untallied := hstuck.untallied
  ballot := by
    obtain ⟨ballot, hballot, helection⟩ := hstuck.ballot
    refine ⟨ballot, ?_, helection⟩
    rw [insertBallot_ballots]
    exact List.mem_append_left _ hballot
  candidates := hstuck.candidates

theorem StuckWorld.step {frozen : Database} {world world' : TallyWorld} {event : TallyEvent}
    (hworld : StuckWorld config electionId frozen world)
    (hstep : TallyStep config world event world') :
    StuckWorld config electionId frozen world' := by
  have hsound := hworld.toSoundWorld.step hstep
  cases hstep with
  | advance later hlater => exact ⟨hsound, hworld.stuck, hworld.tallies, hworld.tallyEntries⟩
  | check commandData commandSignature voterId pending hchecks =>
      exact ⟨hsound, hworld.stuck, hworld.tallies, hworld.tallyEntries⟩
  | commit pending hpending =>
      exact ⟨hsound, hworld.stuck.insertBallot pending, hworld.tallies, hworld.tallyEntries⟩
  | tick db hgenerate =>
      rw [hworld.stuck.generateTallies_eq_none hworld.sound] at hgenerate
      cases hgenerate

end Stuck

/-- From the first ballot for an untallied election of several candidates on, no tick ever
completes again and no election gets a tally any more. -/
theorem clock_stuck_for_good {config : Config} {start : Database}
    (hballots : start.castEncryptedBallots.rows = [])
    (hentries : start.castEncryptedBallotEntries.rows = []) {now : Int}
    {world later : TallyWorld}
    (hrun : Reaches (TallyStep config) ⟨start, now, [], []⟩ world) {electionId : Int}
    (huntallied : electionId ∈ untallied world.db) (hballot : HasBallot world.db electionId)
    (hcandidates : (candidateIds world.db electionId).length ≠ 1)
    (hlater : Reaches (TallyStep config) world later) :
    (∀ after, ¬TallyStep config later .tick after) ∧
      later.db.tallies = world.db.tallies ∧ later.db.tallyEntries = world.db.tallyEntries := by
  have hinitial : SoundWorld config ⟨start, now, [], []⟩ :=
    ⟨.of_empty hballots hentries, by simp⟩
  have hstuck : StuckWorld config electionId world.db world :=
    { toSoundWorld := hinitial.run hrun
      stuck := ⟨huntallied, hballot, hcandidates⟩
      tallies := rfl
      tallyEntries := rfl }
  have hfinal := hlater.invariant hstuck fun hsource hstep => hsource.step hstep
  refine ⟨?_, hfinal.tallies, hfinal.tallyEntries⟩
  intro after hstep
  cases hstep with
  | tick db hgenerate =>
      rw [hfinal.stuck.generateTallies_eq_none hfinal.sound] at hgenerate
      cases hgenerate

/-! An election of two candidates, where the same ballot comes in twice. -/

theorem clock_stuck_for_good_pair :
    (∀ after, ¬TallyStep SmallElection.reference.config
        ⟨insertBallot (pairState 1 0) (pairPending 1 0), 5, [], []⟩ .tick after) ∧
      (insertBallot (pairState 1 0) (pairPending 1 0)).tallies = (pairState 1 0).tallies ∧
        (insertBallot (pairState 1 0) (pairPending 1 0)).tallyEntries =
          (pairState 1 0).tallyEntries := by
  have haccepted := pairPending_accepted oneHot_first
  have huntallied : 1 ∈ untallied (pairState 1 0) := List.mem_singleton.mpr rfl
  have hballot : HasBallot (pairState 1 0) 1 :=
    ⟨pairRow 1 0, List.mem_singleton.mpr rfl, rfl⟩
  have hcandidates : (candidateIds (pairState 1 0) 1).length ≠ 1 := by
    rw [show candidateIds (pairState 1 0) 1 = [1, 2] from rfl]
    decide
  have hagain := haccepted.of_sameSetup (insertBallot_sameSetup pairDatabase (pairPending 1 0))
  exact clock_stuck_for_good rfl rfl (reaches_insertBallot haccepted rfl) huntallied hballot
    hcandidates (reaches_insertBallot hagain rfl)

end VotingSystem.Server
