import VotingSystem.Server.StoredBallots
import VotingSystem.Server.TallyGenerator

namespace VotingSystem.Server

open VotingSystem.Data VotingSystem.Crypto VotingSystem.Protos VotingSystem.Storage

/-! Casts, clock ticks and time. A cast is checked in one step and committed in a
later one. -/

/-- `reads` keeps the ballots whose entries each tally was computed from. -/
structure TallyWorld where
  db : Database
  now : Int
  pending : List PendingBallot
  reads : List (Int × List Int)

inductive TallyEvent
  | advance (later : Int)
  | check (commandData commandSignature : Bytes) (voterId : Int)
  | commit (pending : PendingBallot)
  | tick

def readBallots (db : Database) (electionId : Int) : List Int :=
  (tallySelection db electionId).map CastEncryptedBallotEntryRow.castEncryptedBallotId

section Step

variable (config : Config)

inductive TallyStep : TallyWorld → TallyEvent → TallyWorld → Prop
  | advance (world : TallyWorld) (later : Int) (hlater : world.now ≤ later) :
      TallyStep world (.advance later) { world with now := later }
  | check (world : TallyWorld) (commandData commandSignature : Bytes) (voterId : Int)
      (pending : PendingBallot)
      (hchecks : castBallotChecks config world.db world.now commandData commandSignature
        voterId = .ok pending) :
      TallyStep world (.check commandData commandSignature voterId)
        { world with pending := pending :: world.pending }
  | commit (world : TallyWorld) (pending : PendingBallot)
      (hpending : pending ∈ world.pending) :
      TallyStep world (.commit pending)
        { world with
          db := insertBallot world.db pending
          pending := world.pending.erase pending }
  | tick (world : TallyWorld) (db : Database)
      (hgenerate : generateTallies config world.db = some db) :
      TallyStep world .tick
        { world with
          db := db
          reads := world.reads ++
            (untallied world.db).map fun electionId =>
              (electionId, readBallots world.db electionId) }

/-- A tick comes when every election still without a tally has ended and no cast
for one is between its checks and its commit. -/
def SafeTick (world : TallyWorld) : TallyEvent → Prop
  | .tick => ∀ electionId ∈ untallied world.db,
      (∀ election ∈ world.db.elections.rows, election.id = electionId →
        election.endTime < world.now) ∧
      ∀ pending ∈ world.pending, pending.ballot.electionId.toInt ≠ electionId
  | _ => True

end Step

def storedBallots (db : Database) (electionId ballotId : Int) : Prop :=
  ∃ ballot ∈ db.castEncryptedBallots.rows,
    ballot.electionId = electionId ∧ ballot.id = ballotId

/-- A tallied election has ended, and its tally read the ballots that are stored
for it. -/
structure NoBallotLost (world : TallyWorld) : Prop where
  ended : ∀ tally ∈ world.db.tallies.rows, ∀ election ∈ world.db.elections.rows,
    election.id = tally.electionId → election.endTime < world.now
  read : ∀ tally ∈ world.db.tallies.rows, ∃ read ∈ world.reads, read.1 = tally.electionId
  complete : ∀ read ∈ world.reads, ∀ ballotId,
    ballotId ∈ read.2 ↔ storedBallots world.db read.1 ballotId

theorem SoundStore.mem_readBallots {config : Config} {db : Database}
    (hsound : SoundStore config db) {electionId ballotId : Int} :
    ballotId ∈ readBallots db electionId ↔ storedBallots db electionId ballotId := by
  unfold readBallots storedBallots
  rw [List.mem_map]
  constructor
  · intro hexists
    obtain ⟨entry, hentry, rfl⟩ := hexists
    obtain ⟨hentry, candidate, hcandidate, hid, helection⟩ :=
      (mem_tallySelection db).mp hentry
    obtain ⟨ballot, hballot, hballotId⟩ := hsound.entries entry hentry
    have hmem : entry ∈ entriesOf db ballot.id :=
      List.mem_filter.mpr ⟨hentry, by simp [hballotId]⟩
    have hsame := hsound.candidate_electionId hballot hmem hcandidate hid
    exact ⟨ballot, hballot, hsame.symm.trans helection, hballotId⟩
  · intro hstored
    obtain ⟨ballot, hballot, rfl, rfl⟩ := hstored
    obtain ⟨_, _, hcandidates, honeHot⟩ := hsound.ballots ballot hballot
    -- a ballot that holds a one has an entry
    have hone := List.count_pos_iff.mp (honeHot.count_one.symm ▸ Nat.one_pos)
    obtain ⟨entry, hentry, _⟩ := List.mem_map.mp hone
    have hid : entry.candidateId ∈ candidateIds db ballot.electionId := by
      rw [← hcandidates]
      exact List.mem_map_of_mem hentry
    obtain ⟨candidate, hcandidate, helection, hcandidateId⟩ := mem_candidateIds.mp hid
    obtain ⟨hstored, hballotId⟩ := List.mem_filter.mp hentry
    exact ⟨entry, (mem_tallySelection db).mpr ⟨hstored, candidate, hcandidate,
      hcandidateId, helection⟩, by simpa using hballotId⟩

structure SoundWorld (config : Config) (world : TallyWorld) : Prop where
  sound : SoundStore config world.db
  accepted : ∀ pending ∈ world.pending, Accepted config world.db pending

section Sound

variable {config : Config}

theorem SoundStore.of_tallied {elections : List Int} {db db' : Database}
    (hsound : SoundStore config db) (htallied : Tallied elections db db') :
    SoundStore config db' := by
  obtain ⟨hsetup, hballots, hentries, _⟩ := htallied
  obtain ⟨hstored, hrefer⟩ := hsound
  refine ⟨fun ballot hballot => ?_, ?_⟩
  · rw [hballots] at hballot
    obtain ⟨hinTime, hauthorized, hids, honeHot⟩ := hstored ballot hballot
    refine ⟨by rwa [hsetup.elections],
      by rwa [hsetup.voters, hsetup.electionsVoterGroups], ?_, ?_⟩
    · rwa [entriesOf, hentries, candidateIds_of_sameSetup hsetup]
    · rwa [entriesOf, hentries]
  · rwa [hentries, hballots]

theorem SoundWorld.step {world world' : TallyWorld} {event : TallyEvent}
    (hworld : SoundWorld config world) (hstep : TallyStep config world event world') :
    SoundWorld config world' := by
  obtain ⟨hsound, haccepted⟩ := hworld
  cases hstep with
  | advance later hlater => exact ⟨hsound, haccepted⟩
  | check commandData commandSignature voterId pending hchecks =>
      refine ⟨hsound, fun other hother => ?_⟩
      rcases List.mem_cons.mp hother with rfl | hold
      · exact (castBallotChecks_eq_ok.mp hchecks).1
      · exact haccepted other hold
  | commit pending hpending =>
      refine ⟨hsound.insertBallot (haccepted pending hpending), fun other hother => ?_⟩
      -- the checks read nothing that an insertion writes
      exact (haccepted other (List.mem_of_mem_erase hother)).of_sameSetup
        (insertBallot_sameSetup world.db pending)
  | tick db hgenerate =>
      have htallied := generateTallies_tallied hgenerate
      exact ⟨hsound.of_tallied htallied,
        fun pending hpending => (haccepted pending hpending).of_sameSetup htallied.setup⟩

theorem SoundWorld.run {start world : TallyWorld} (hstart : SoundWorld config start)
    (hrun : Reaches (TallyStep config) start world) : SoundWorld config world :=
  hrun.invariant hstart fun hsource hstep => hsource.step hstep

theorem PositiveIds.of_tallied {elections : List Int} {db db' : Database}
    (hpositive : PositiveIds db) (htallied : Tallied elections db db') : PositiveIds db' where
  nextval := by
    rw [htallied.ballots]
    exact hpositive.nextval
  ballots := by
    rw [htallied.ballots]
    exact hpositive.ballots

theorem PositiveIds.step {world world' : TallyWorld} {event : TallyEvent}
    (hpositive : PositiveIds world.db) (hstep : TallyStep config world event world') :
    PositiveIds world'.db := by
  cases hstep with
  | advance later hlater => exact hpositive
  | check commandData commandSignature voterId pending hchecks => exact hpositive
  | commit pending hpending => exact hpositive.insertBallot pending
  | tick db hgenerate =>
      exact hpositive.of_tallied (generateTallies_tallied hgenerate)

theorem PositiveIds.run {start world : TallyWorld} (hstart : PositiveIds start.db)
    (hrun : Reaches (TallyStep config) start world) : PositiveIds world.db := by
  induction hrun with
  | refl => exact hstart
  | tail _ hstep ih => exact ih.step hstep

theorem reaches_insertBallot {world : TallyWorld} {pending : PendingBallot}
    (haccepted : Accepted config world.db pending) (hcastAt : pending.castAt = world.now) :
    Reaches (TallyStep config) world { world with db := insertBallot world.db pending } := by
  have hchecks := castBallotChecks_eq_ok.mpr ⟨haccepted, rfl, hcastAt, rfl, rfl⟩
  have hcommit := @TallyStep.commit config
    { world with pending := pending :: world.pending } pending (by simp)
  simp only [List.erase_cons_head] at hcommit
  exact .tail (.single (.check world _ _ _ pending hchecks)) hcommit

/-- A command is a check and a commit with nothing in between. -/
theorem reaches_processCommand (lib : Libraries) (world : TallyWorld) (bytes : Bytes) :
    Reaches (TallyStep config) world
      { world with db := (processCommand lib config world.now world.db bytes).2 } := by
  rcases processCommand_cases lib config world.now world.db bytes with
    hsame | ⟨command, pending, hstores, hresult⟩
  · rw [hsame]
    exact .refl
  · rw [hresult]
    exact reaches_insertBallot hstores.accepted hstores.castAt

end Sound

structure TimelyWorld (config : Config) (world : TallyWorld) : Prop
    extends SoundWorld config world where
  lossless : NoBallotLost world
  open_pending : ∀ pending ∈ world.pending, ∀ tally ∈ world.db.tallies.rows,
    tally.electionId ≠ pending.ballot.electionId.toInt
  tallied : ∀ read ∈ world.reads, ∃ tally ∈ world.db.tallies.rows, tally.electionId = read.1

section Preserve

variable {config : Config} {world : TallyWorld}

theorem TimelyWorld.advance (htimely : TimelyWorld config world) {later : Int}
    (hlater : world.now ≤ later) : TimelyWorld config { world with now := later } where
  toSoundWorld := htimely.toSoundWorld.step (.advance world later hlater)
  lossless :=
    { ended := fun tally htally election helection hid =>
        (htimely.lossless.ended tally htally election helection hid).trans_le hlater
      read := htimely.lossless.read
      complete := htimely.lossless.complete }
  open_pending := htimely.open_pending
  tallied := htimely.tallied

/-- A ballot that is accepted now belongs to an election that has not ended, so
to one without a tally. -/
theorem TimelyWorld.check (htimely : TimelyWorld config world)
    {commandData commandSignature : Bytes} {voterId : Int} {pending : PendingBallot}
    (hchecks : castBallotChecks config world.db world.now commandData commandSignature
      voterId = .ok pending) :
    TimelyWorld config { world with pending := pending :: world.pending } where
  toSoundWorld := htimely.toSoundWorld.step
    (.check world commandData commandSignature voterId pending hchecks)
  lossless := ⟨htimely.lossless.ended, htimely.lossless.read, htimely.lossless.complete⟩
  open_pending := by
    obtain ⟨haccepted, _, hnow, _⟩ := castBallotChecks_eq_ok.mp hchecks
    intro other hother tally htally
    rcases List.mem_cons.mp hother with rfl | hold
    · intro hsame
      obtain ⟨voter, _, _, hone⟩ := haccepted.voter
      obtain ⟨election, helection, _, _, hid, _, hend, _⟩ := exists_of_eligible hone
      have hended := htimely.lossless.ended tally htally election helection
        (hid.trans hsame.symm)
      omega
    · exact htimely.open_pending other hold tally htally
  tallied := htimely.tallied

theorem TimelyWorld.commit (htimely : TimelyWorld config world) {pending : PendingBallot}
    (hpending : pending ∈ world.pending) :
    TimelyWorld config
      { world with
        db := insertBallot world.db pending
        pending := world.pending.erase pending } where
  toSoundWorld := htimely.toSoundWorld.step (.commit world pending hpending)
  lossless :=
    { ended := htimely.lossless.ended
      read := htimely.lossless.read
      complete := by
        intro read hread ballotId
        have hbefore := htimely.lossless.complete read hread ballotId
        obtain ⟨tally, htally, hsame⟩ := htimely.tallied read hread
        have hother := htimely.open_pending pending hpending tally htally
        rw [hsame] at hother
        rw [hbefore]
        unfold storedBallots
        simp only [insertBallot_ballots, List.mem_append, List.mem_singleton]
        constructor
        · intro hstored
          obtain ⟨ballot, hballot, hrest⟩ := hstored
          exact ⟨ballot, .inl hballot, hrest⟩
        · intro hstored
          obtain ⟨ballot, hold | rfl, helection, hid⟩ := hstored
          · exact ⟨ballot, hold, helection, hid⟩
          · exact absurd helection.symm hother }
  open_pending := fun other hother =>
    htimely.open_pending other (List.mem_of_mem_erase hother)
  tallied := htimely.tallied

theorem Tallied.mem_tallies {elections : List Int} {db db' : Database}
    (htallied : Tallied elections db db') {electionId : Int} :
    (∃ tally ∈ db'.tallies.rows, tally.electionId = electionId) ↔
      (∃ tally ∈ db.tallies.rows, tally.electionId = electionId) ∨
        electionId ∈ elections := by
  have hids := congrArg (electionId ∈ ·) htallied.tallies
  simpa [List.mem_map] using hids

theorem TimelyWorld.tick (htimely : TimelyWorld config world) {db : Database}
    (hgenerate : generateTallies config world.db = some db)
    (hsafe : SafeTick world .tick) :
    TimelyWorld config
      { world with
        db := db
        reads := world.reads ++
          (untallied world.db).map fun electionId =>
            (electionId, readBallots world.db electionId) } := by
  have htallied := generateTallies_tallied hgenerate
  have hold : ∀ tally ∈ db.tallies.rows,
      (∃ old ∈ world.db.tallies.rows, old.electionId = tally.electionId) ∨
        tally.electionId ∈ untallied world.db := fun tally htally =>
    htallied.mem_tallies.mp ⟨tally, htally, rfl⟩
  refine ⟨htimely.toSoundWorld.step (.tick world db hgenerate), ⟨?_, ?_, ?_⟩, ?_, ?_⟩
  · intro tally htally election helection hid
    rw [htallied.setup.elections] at helection
    rcases hold tally htally with ⟨old, hold, hsame⟩ | hnew
    · exact htimely.lossless.ended old hold election helection (hid.trans hsame.symm)
    · exact (hsafe _ hnew).1 election helection hid
  · intro tally htally
    rcases hold tally htally with ⟨old, hold, hsame⟩ | hnew
    · obtain ⟨read, hread, heq⟩ := htimely.lossless.read old hold
      exact ⟨read, List.mem_append_left _ hread, heq.trans hsame⟩
    · exact ⟨(tally.electionId, readBallots world.db tally.electionId),
        List.mem_append_right _ (List.mem_map.mpr ⟨_, hnew, rfl⟩), rfl⟩
  · intro read hread ballotId
    unfold storedBallots
    rw [htallied.ballots]
    rcases List.mem_append.mp hread with hold | hnew
    · exact htimely.lossless.complete read hold ballotId
    · obtain ⟨electionId, _, rfl⟩ := List.mem_map.mp hnew
      exact htimely.sound.mem_readBallots
  · intro pending hpending tally htally
    rcases hold tally htally with ⟨old, hold, hsame⟩ | hnew
    · rw [← hsame]
      exact htimely.open_pending pending hpending old hold
    · exact ((hsafe _ hnew).2 pending hpending).symm
  · intro read hread
    apply htallied.mem_tallies.mpr
    rcases List.mem_append.mp hread with hold | hnew
    · exact .inl (htimely.tallied read hold)
    · obtain ⟨electionId, helection, rfl⟩ := List.mem_map.mp hnew
      exact .inr helection

end Preserve

/-- When ticks wait for the end of the untallied elections and of their casts, no
ballot is lost in any reachable state. -/
theorem noBallotLost_of_safeTicks {config : Config} {start : Database}
    (hsound : SoundStore config start) (hnone : start.tallies.rows = []) {now : Int}
    {world : TallyWorld}
    (hrun : Reaches (Restricted (TallyStep config) SafeTick) ⟨start, now, [], []⟩ world) :
    NoBallotLost world := by
  have hinitial : TimelyWorld config ⟨start, now, [], []⟩ :=
    { lossless := ⟨by simp [hnone], by simp [hnone], by simp⟩
      sound := hsound
      accepted := by simp
      open_pending := by simp
      tallied := by simp }
  have hfinal : TimelyWorld config world := by
    apply hrun.invariant hinitial
    intro source event target hsource hrestricted
    obtain ⟨hstep, hsafe⟩ := hrestricted
    cases hstep with
    | advance later hlater => exact hsource.advance hlater
    | check commandData commandSignature voterId pending hchecks =>
        exact hsource.check hchecks
    | commit pending hpending => exact hsource.commit hpending
    | tick db hgenerate => exact hsource.tick hgenerate hsafe
  exact hfinal.lossless

/-! The reference vote and a tick after the end of its election. -/

def votedWorld (now : Int) : TallyWorld := ⟨votedDatabase, now, [], []⟩

/-- The reference vote is checked and committed, and the election ends. -/
theorem reaches_votedWorld {condition : TallyWorld → TallyEvent → Prop}
    (hcheck : ∀ world signature voterId,
      condition world (.check (SmallElection.referencePending []).commandData signature voterId))
    (hcommit : ∀ world pending, condition world (.commit pending))
    (hadvance : ∀ world later, condition world (.advance later)) :
    Reaches (Restricted (TallyStep SmallElection.reference.config) condition)
      ⟨SmallElection.reference.database, 5, [], []⟩ (votedWorld 11) := by
  have haccepted := SmallElection.reference_stores_vote.accepted
  have hchecks := castBallotChecks_eq_ok.mpr ⟨haccepted, rfl, rfl, rfl, rfl⟩
  have hchecked := TallyStep.check ⟨SmallElection.reference.database, 5, [], []⟩ _ _ _
    (SmallElection.referencePending []) hchecks
  have hcommitted := @TallyStep.commit SmallElection.reference.config
    ⟨SmallElection.reference.database, 5, [SmallElection.referencePending []], []⟩
    (SmallElection.referencePending []) (by simp)
  rw [List.erase_cons_head] at hcommitted
  have hadvanced := @TallyStep.advance SmallElection.reference.config (votedWorld 5) 11
    (by decide)
  exact .tail (.tail (.single ⟨hchecked, hcheck _ _ _⟩) ⟨hcommitted, hcommit _ _⟩)
    ⟨hadvanced, hadvance _ _⟩

theorem generateTallies_singleton {config : Config} {db db' : Database} {electionId : Int}
    (huntallied : untallied db = [electionId])
    (hgenerate : generateTally config db electionId = some db') :
    generateTallies config db = some db' := by
  rw [generateTallies, huntallied, List.foldlM_cons, hgenerate]
  rfl

theorem groupCiphertexts_singleton (entry : CastEncryptedBallotEntryRow) :
    groupCiphertexts [entry] = some [(entry.candidateId, [entry.encryptedValue])] := rfl

/-- The sum of one vote decrypts to one. -/
theorem paillierDec_paillierSum_vote (key : KeyPair) {blind : Nat}
    (hblind : blind.Coprime key.modulus.n) :
    paillierDec (paillierSum [ciphertextBytes (key.modulus.encrypt (2 ^ 56) blind)]
        (pubHex key.modulus)) (privHexP key.modulus) (privHexQ key.modulus)
        (pubHex key.modulus) = 1 := by
  have hsum := @decryptedPlaintext_paillierSum key.modulus key.n_lt [(2 ^ 56, blind)]
    (by simpa using hblind)
  have hone : encodedPlaintext 1 = 2 ^ 56 := encodedPlaintext_of_lt (by decide)
  simp only [List.map_cons, List.map_nil, List.sum_cons, List.sum_nil, Nat.add_zero,
    key.encodedOne_mod] at hsum
  rw [paillierDec_eq_iff, hsum, hone]
  norm_num

theorem exists_generateTallies_voted :
    ∃ db, generateTallies SmallElection.reference.config votedDatabase = some db := by
  have huntallied : untallied votedDatabase = [1] := rfl
  have hcandidates : votedDatabase.candidates.rows = [SmallElection.candidate] := rfl
  have hselected : tallySelection votedDatabase 1 =
      [⟨1, 1, 1, ciphertextBytes
        (SmallElection.reference.key.modulus.encrypt (2 ^ 56) 1)⟩] := by
    rw [tallySelection_eq, votedDatabase_entries, hcandidates]
    simp [SmallElection.candidate]
  have hsmall : (candidateTally SmallElection.reference.config (1, [ciphertextBytes
      (SmallElection.reference.key.modulus.encrypt (2 ^ 56) 1)])).decryptedValue = 1 :=
    paillierDec_paillierSum_vote SmallElection.reference.key (Nat.coprime_one_left _)
  have hgroup := groupCiphertexts_singleton ⟨1, 1, 1, ciphertextBytes
    (SmallElection.reference.key.modulus.encrypt (2 ^ 56) 1)⟩
  rw [← hselected] at hgroup
  have hgenerate := (@generateTally_eq_some SmallElection.reference.config votedDatabase _
    1).mpr ⟨_, hgroup, by
      intro group hmem
      rw [List.mem_singleton.mp hmem, hsmall]
      decide, rfl⟩
  exact ⟨_, generateTallies_singleton huntallied hgenerate⟩

theorem noBallotLost_of_safeTicks_voted :
    ∃ db, generateTallies SmallElection.reference.config votedDatabase = some db ∧
      NoBallotLost ⟨db, 11, [], [(1, readBallots votedDatabase 1)]⟩ := by
  obtain ⟨db, hgenerate⟩ := exists_generateTallies_voted
  have hvoted : Reaches
      (Restricted (TallyStep SmallElection.reference.config) SafeTick)
      ⟨SmallElection.reference.database, 5, [], []⟩ (votedWorld 11) :=
    reaches_votedWorld (fun _ _ _ => trivial) (fun _ _ => trivial) fun _ _ => trivial
  have htick := @TallyStep.tick SmallElection.reference.config (votedWorld 11) db hgenerate
  have hsafe : SafeTick (votedWorld 11) .tick := by
    intro electionId _
    refine ⟨fun election helection _ => ?_, by simp [votedWorld]⟩
    rw [List.mem_singleton.mp helection]
    decide
  exact ⟨db, hgenerate, noBallotLost_of_safeTicks
    (.of_empty SmallElection.reference.database_ballots SmallElection.reference.database_entries)
    SmallElection.reference.database_tallies (hvoted.tail ⟨htick, hsafe⟩)⟩

/-! A tick over the small election. -/

def talliedSmall : Database := insertTally SmallElection.reference.database 1 []

theorem generateTallies_small :
    generateTallies SmallElection.reference.config SmallElection.reference.database =
      some talliedSmall := rfl

def tickedWorld (now : Int) : TallyWorld := ⟨talliedSmall, now, [], [(1, [])]⟩

theorem tick_small (now : Int) :
    TallyStep SmallElection.reference.config
      ⟨SmallElection.reference.database, now, [], []⟩ .tick (tickedWorld now) :=
  .tick ⟨SmallElection.reference.database, now, [], []⟩ talliedSmall generateTallies_small

theorem early_tick_loses_ballots :
    Reaches (TallyStep SmallElection.reference.config)
        ⟨SmallElection.reference.database, 0, [], []⟩ (tickedWorld 0) ∧
      ¬NoBallotLost (tickedWorld 0) := by
  refine ⟨.single (tick_small 0), fun hlossless => ?_⟩
  have hended := hlossless.ended ⟨1, 1⟩ (List.mem_singleton.mpr rfl)
    SmallElection.reference.election (List.mem_singleton.mpr rfl) rfl
  exact absurd hended (by decide)

end VotingSystem.Server
