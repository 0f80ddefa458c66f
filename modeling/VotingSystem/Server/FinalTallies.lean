import VotingSystem.Server.ReportedTally
import VotingSystem.Server.TallyTiming

namespace VotingSystem.Server

open VotingSystem.Data VotingSystem.Crypto VotingSystem.Protos VotingSystem.Storage

/-! Which tallied elections `getElections` reports as finalized. It looks at the
entries of a tally, and a tally has entries for the candidates that `generateTally`
met. -/

section Groups

variable {ctexts grouped : Ciphertexts}

theorem Ciphertexts.map_fst_put (candidateId : Int) (values : List Bytes)
    (ctexts : Ciphertexts) :
    (ctexts.put candidateId values).map Prod.fst =
      if candidateId ∈ ctexts.map Prod.fst then ctexts.map Prod.fst
      else ctexts.map Prod.fst ++ [candidateId] := by
  induction ctexts with
  | nil => simp [put]
  | cons group rest ih =>
      obtain ⟨otherId, others⟩ := group
      by_cases heq : otherId = candidateId
      · simp [put, heq]
      · have hne : candidateId ≠ otherId := Ne.symm heq
        rw [put, if_neg heq, List.map_cons, ih]
        by_cases hmem : candidateId ∈ rest.map Prod.fst <;> simp [hmem, hne]

theorem groupRow_eq_put {row : CastEncryptedBallotEntryRow × Nat}
    (hgroup : groupRow ctexts row = some grouped) :
    ∃ values, grouped = ctexts.put row.1.candidateId values := by
  simp only [groupRow] at hgroup
  split at hgroup
  · simp only [Option.some.injEq] at hgroup
    exact ⟨_, hgroup.symm⟩
  · contradiction

theorem foldlM_groupRow_keys {rows : List (CastEncryptedBallotEntryRow × Nat)}
    (hfold : rows.foldlM groupRow ctexts = some grouped)
    (hnodup : (ctexts.map Prod.fst).Nodup) :
    (grouped.map Prod.fst).Nodup ∧
      ∀ candidateId, candidateId ∈ grouped.map Prod.fst ↔
        candidateId ∈ ctexts.map Prod.fst ∨
          candidateId ∈ rows.map fun row => row.1.candidateId := by
  induction rows generalizing ctexts with
  | nil =>
      simp only [List.foldlM_nil, Option.pure_def, Option.some.injEq] at hfold
      subst hfold
      exact ⟨hnodup, by simp⟩
  | cons row rows ih =>
      rw [List.foldlM_cons] at hfold
      obtain ⟨middle, hgroup, hrest⟩ := Option.bind_eq_some_iff.mp hfold
      obtain ⟨values, rfl⟩ := groupRow_eq_put hgroup
      have hkeys := ctexts.map_fst_put row.1.candidateId values
      have hmiddle : ((ctexts.put row.1.candidateId values).map Prod.fst).Nodup := by
        rw [hkeys]
        split
        · exact hnodup
        · rename_i hnew
          rw [List.nodup_append']
          exact ⟨hnodup, List.nodup_singleton _, by simpa using hnew⟩
      obtain ⟨hgrouped, hmem⟩ := ih hrest hmiddle
      refine ⟨hgrouped, fun candidateId => ?_⟩
      rw [hmem, hkeys, List.map_cons, List.mem_cons]
      split
      · rename_i hold
        constructor
        · rintro (hfirst | hlater)
          · exact .inl hfirst
          · exact .inr (.inr hlater)
        · rintro (hfirst | rfl | hlater)
          · exact .inl hfirst
          · exact .inl hold
          · exact .inr hlater
      · rw [List.mem_append, List.mem_singleton, or_assoc]

/-- There is one group for each candidate that has a selected entry. -/
theorem groupCiphertexts_keys {rows : List CastEncryptedBallotEntryRow}
    (hgroup : groupCiphertexts rows = some grouped) :
    (grouped.map Prod.fst).Nodup ∧
      ∀ candidateId, candidateId ∈ grouped.map Prod.fst ↔
        candidateId ∈ rows.map CastEncryptedBallotEntryRow.candidateId := by
  obtain ⟨hnodup, hmem⟩ := foldlM_groupRow_keys hgroup List.nodup_nil
  refine ⟨hnodup, fun candidateId => ?_⟩
  have hrows : (rows.zipIdx.map fun row => row.1.candidateId) =
      rows.map CastEncryptedBallotEntryRow.candidateId := by
    rw [← List.zipIdx_map_fst 0 rows, List.map_map]
    simp
  rw [hmem, hrows]
  simp

end Groups

def HasBallot (db : Database) (electionId : Int) : Prop :=
  ∃ ballot ∈ db.castEncryptedBallots.rows, ballot.electionId = electionId

section Selected

variable {config : Config} {db : Database} {electionId : Int}

theorem SoundStore.candidateIds_ne_nil (hsound : SoundStore config db)
    (hballot : HasBallot db electionId) : candidateIds db electionId ≠ [] := by
  obtain ⟨ballot, hballot, rfl⟩ := hballot
  obtain ⟨_, _, hcandidates, honeHot⟩ := hsound.ballots ballot hballot
  intro hnil
  rw [hnil, List.map_eq_nil_iff] at hcandidates
  have hcount := honeHot.count_one
  simp [hcandidates] at hcount

/-- One ballot is enough for every candidate to be selected. -/
theorem SoundStore.mem_selected (hsound : SoundStore config db)
    (hballot : HasBallot db electionId) {candidateId : Int} :
    candidateId ∈ (tallySelection db electionId).map
        CastEncryptedBallotEntryRow.candidateId ↔
      candidateId ∈ candidateIds db electionId := by
  constructor
  · intro hselected
    obtain ⟨entry, hentry, rfl⟩ := List.mem_map.mp hselected
    obtain ⟨_, candidate, hcandidate, hid, helection⟩ := (mem_tallySelection db).mp hentry
    exact mem_candidateIds.mpr ⟨candidate, hcandidate, helection, hid⟩
  · intro hcandidate
    obtain ⟨ballot, hballot, rfl⟩ := hballot
    obtain ⟨candidate, hstored, helection, hid⟩ := mem_candidateIds.mp hcandidate
    rw [← (hsound.ballots ballot hballot).candidates] at hcandidate
    obtain ⟨entry, hentry, rfl⟩ := List.mem_map.mp hcandidate
    exact List.mem_map_of_mem ((mem_tallySelection db).mpr
      ⟨List.mem_of_mem_filter hentry, candidate, hstored, hid, helection⟩)

theorem SoundStore.groups_perm (hsound : SoundStore config db)
    (hballot : HasBallot db electionId) {ctexts : Ciphertexts}
    (hgroup : groupCiphertexts (tallySelection db electionId) = some ctexts) :
    (ctexts.map Prod.fst).Perm (candidateIds db electionId) := by
  obtain ⟨hnodup, hmem⟩ := groupCiphertexts_keys hgroup
  apply (List.perm_ext_iff_of_nodup hnodup (candidateIds_nodup db electionId)).mpr
  intro candidateId
  rw [hmem, hsound.mem_selected hballot]

end Selected

def tallyEntriesOf (db : Database) (tallyId : Int) : List TallyEntryRow :=
  db.tallyEntries.rows.filter fun entry => entry.tallyId = tallyId

/-- Every tally has one entry for each candidate of its election, of which there is
at least one. -/
structure CompleteTallies (db : Database) : Prop where
  one : OneTallyPerElection db
  entries : ∀ entry ∈ db.tallyEntries.rows,
    ∃ tally ∈ db.tallies.rows, tally.id = entry.tallyId
  candidates : ∀ tally ∈ db.tallies.rows, candidateIds db tally.electionId ≠ [] ∧
    ((tallyEntriesOf db tally.id).map TallyEntryRow.candidateId).Perm
      (candidateIds db tally.electionId)

/-- What `getElections` says of every election with a tally. -/
def ReportedFinal (db : Database) : Prop :=
  ∀ tally ∈ db.tallies.rows, ∀ election ∈ db.elections.rows,
    election.id = tally.electionId →
      ∃ message, electionMessage db election = some message ∧
        message.tally.finalized = true ∧ message.tally.id = Int32.ofInt tally.id ∧
          message.tally.tallyEntries.map TallyEntry.candidateId =
            (candidateIds db election.id).map Int32.ofInt

namespace CompleteTallies

variable {db : Database}

theorem tallyRows_eq (hcomplete : CompleteTallies db) {tally : TallyRow}
    (htally : tally ∈ db.tallies.rows) :
    tallyRows db tally.electionId =
      orderBy TallyEntryRow.candidateId (tallyEntriesOf db tally.id) := by
  rw [Server.tallyRows_eq, tallyEntriesOf]
  congr 1
  apply List.filter_congr
  intro entry _
  by_cases hid : entry.tallyId = tally.id
  · simpa [hid] using ⟨tally, htally, rfl, rfl⟩
  · simp only [hid, decide_false, List.any_eq_false, Bool.and_eq_true, decide_eq_true_eq]
    rintro other hother ⟨hsame, helection⟩
    have heq := hcomplete.one.eq_of_electionId_eq hother htally helection
    exact hid (hsame.symm.trans (congrArg TallyRow.id heq))

theorem candidateIds_tallyRows (hcomplete : CompleteTallies db) {tally : TallyRow}
    (htally : tally ∈ db.tallies.rows) :
    (tallyRows db tally.electionId).map TallyEntryRow.candidateId =
      candidateIds db tally.electionId := by
  rw [hcomplete.tallyRows_eq htally]
  exact map_orderBy_of_perm _ (hcomplete.candidates tally htally).2
    (candidateIds_sorted db tally.electionId)

theorem electionTally_eq (hcomplete : CompleteTallies db) {tally : TallyRow}
    (htally : tally ∈ db.tallies.rows) :
    electionTally db tally.electionId =
      some ⟨Int32.ofInt tally.id, true, (tallyRows db tally.electionId).map tallyEntry⟩ := by
  have hids := hcomplete.candidateIds_tallyRows htally
  have htallyId : ∀ entry ∈ tallyRows db tally.electionId, entry.tallyId = tally.id := by
    intro entry hentry
    rw [hcomplete.tallyRows_eq htally, mem_orderBy] at hentry
    simpa using List.of_mem_filter hentry
  cases hrows : tallyRows db tally.electionId with
  | nil =>
      rw [hrows, List.map_nil] at hids
      exact absurd hids.symm (hcomplete.candidates tally htally).1
  | cons first rest =>
      rw [hrows] at htallyId
      have hfirst : first.tallyId = tally.id := htallyId first (by simp)
      have hsame : ((first :: rest).all fun row => row.tallyId = first.tallyId) = true := by
        rw [List.all_eq_true]
        intro entry hentry
        simp [htallyId entry hentry, hfirst]
      simp only [electionTally, hrows]
      rw [if_pos hsame, hfirst]

theorem reportedFinal (hcomplete : CompleteTallies db) : ReportedFinal db := by
  intro tally htally election helection hid
  obtain ⟨message, hmessage, _⟩ := hcomplete.one.exists_electionMessage election
  obtain ⟨_, htallyMessage, _, _⟩ := electionMessage_fields hmessage
  rw [hid, hcomplete.electionTally_eq htally, Option.some.injEq] at htallyMessage
  refine ⟨message, hmessage, by rw [← htallyMessage], by rw [← htallyMessage], ?_⟩
  rw [← htallyMessage, hid, ← hcomplete.candidateIds_tallyRows htally, List.map_map,
    List.map_map]
  rfl

theorem of_empty (htallies : db.tallies.rows = []) (hentries : db.tallyEntries.rows = []) :
    CompleteTallies db where
  one := by
    rw [OneTallyPerElection, htallies]
    exact .nil
  entries := by simp [hentries]
  candidates := by simp [htallies]

end CompleteTallies

/-! A tick. -/

theorem untallied_nodup (db : Database) : (untallied db).Nodup := by
  have hrows := map_fst_filter_isNone_leftJoin
    (fun (election : ElectionRow) (tally : TallyRow) =>
      decide (election.id = tally.electionId)) db.elections.rows db.tallies.rows
  have hids := congrArg (List.map ElectionRow.id) hrows
  rw [List.map_map] at hids
  have hsub : (untallied db).Sublist (db.elections.rows.map ElectionRow.id) := by
    rw [show untallied db = _ from hids]
    exact List.filter_sublist.map _
  exact db.elections.keys_nodup.sublist hsub

theorem OneTallyPerElection.of_tallied {elections : List Int} {db db' : Database}
    (hone : OneTallyPerElection db) (htallied : Tallied elections db db')
    (hnodup : elections.Nodup)
    (hnew : ∀ electionId ∈ elections, ∀ tally ∈ db.tallies.rows,
      tally.electionId ≠ electionId) : OneTallyPerElection db' := by
  rw [OneTallyPerElection, htallied.tallies, List.nodup_append']
  refine ⟨hone, hnodup, fun electionId hold hmem => ?_⟩
  obtain ⟨tally, htally, heq⟩ := List.mem_map.mp hold
  exact hnew electionId hmem tally htally heq

/-- The elections that are left stay without a tally. -/
theorem Tallied.remaining_new {electionId : Int} {remaining : List Int} {db db' : Database}
    (htallied : Tallied [electionId] db db') (hfirst : electionId ∉ remaining)
    (hnew : ∀ other ∈ electionId :: remaining, ∀ tally ∈ db.tallies.rows,
      tally.electionId ≠ other) :
    ∀ other ∈ remaining, ∀ tally ∈ db'.tallies.rows, tally.electionId ≠ other := by
  intro other hmem tally htally heq
  rcases htallied.mem_tallies.mp ⟨tally, htally, heq⟩ with ⟨old, hold, hsame⟩ | hlast
  · exact hnew other (by simp [hmem]) old hold hsame
  · rw [List.mem_singleton] at hlast
    exact hfirst (hlast ▸ hmem)

section Tick

variable {config : Config} {db db' : Database}

theorem insertTally_entries (db : Database) (electionId : Int)
    (tallies : List CandidateTally) :
    (insertTally db electionId tallies).tallyEntries.rows =
      db.tallyEntries.rows ++
        serialRows (tallyEntryRow db.tallies.nextval) db.tallyEntries.nextval tallies :=
  SerialTable.insertAll_rows _ _ _ _

/-- The new tally has the entries that `generateTally` adds, the others keep theirs. -/
theorem tallyEntriesOf_insertTally (hcomplete : CompleteTallies db) {electionId : Int}
    {tallies : List CandidateTally} {tally : TallyRow}
    (htally : tally ∈ (insertTally db electionId tallies).tallies.rows) :
    tally ∈ db.tallies.rows ∧
        tallyEntriesOf (insertTally db electionId tallies) tally.id =
          tallyEntriesOf db tally.id ∨
      tally = ⟨db.tallies.nextval, electionId⟩ ∧
        (tallyEntriesOf (insertTally db electionId tallies) tally.id).map
            TallyEntryRow.candidateId =
          tallies.map CandidateTally.candidateId := by
  have hadded : ∀ entry ∈ serialRows (tallyEntryRow db.tallies.nextval)
      db.tallyEntries.nextval tallies, entry.tallyId = db.tallies.nextval := by
    intro entry hentry
    obtain ⟨_, _, _, _, rfl⟩ := exists_of_mem_serialRows _ hentry
    rfl
  simp only [insertTally, SerialTable.insert_rows, List.mem_append, List.mem_singleton]
    at htally
  rw [tallyEntriesOf, insertTally_entries, List.filter_append]
  rcases htally with hold | rfl
  · have hlt : tally.id < db.tallies.nextval := db.tallies.keys_lt tally hold
    refine .inl ⟨hold, ?_⟩
    have hnone : ((serialRows (tallyEntryRow db.tallies.nextval) db.tallyEntries.nextval
        tallies).filter fun entry => entry.tallyId = tally.id) = [] := by
      apply List.filter_eq_nil_iff.mpr
      intro entry hentry
      have := hadded entry hentry
      simp only [decide_eq_true_eq]
      omega
    rw [hnone, List.append_nil, tallyEntriesOf]
  · refine .inr ⟨rfl, ?_⟩
    have hnone : (db.tallyEntries.rows.filter fun entry =>
        entry.tallyId = db.tallies.nextval) = [] := by
      apply List.filter_eq_nil_iff.mpr
      intro entry hentry
      obtain ⟨tally, htally, hid⟩ := hcomplete.entries entry hentry
      have hlt : tally.id < db.tallies.nextval := db.tallies.keys_lt tally htally
      simp only [decide_eq_true_eq]
      omega
    rw [hnone, List.nil_append, List.filter_eq_self.mpr (by simpa using hadded)]
    exact map_serialRows (tallyEntryRow db.tallies.nextval) _ _ (fun _ _ => rfl) _ _

theorem CompleteTallies.generateTally (hcomplete : CompleteTallies db)
    (hsound : SoundStore config db) {electionId : Int} (hballot : HasBallot db electionId)
    (hnew : ∀ tally ∈ db.tallies.rows, tally.electionId ≠ electionId)
    (hgenerate : generateTally config db electionId = some db') : CompleteTallies db' := by
  have hone := hcomplete.one.of_tallied (generateTally_tallied hgenerate)
    (List.nodup_singleton _) (by simpa using hnew)
  obtain ⟨ctexts, hgroup, _, rfl⟩ := generateTally_eq_some.mp hgenerate
  refine ⟨hone, ?_, ?_⟩
  · intro entry hentry
    rw [insertTally_entries, List.mem_append] at hentry
    rcases hentry with hold | hnew
    · obtain ⟨tally, htally, hid⟩ := hcomplete.entries entry hold
      exact ⟨tally, by simp [insertTally, htally], hid⟩
    · obtain ⟨_, _, _, _, rfl⟩ := exists_of_mem_serialRows _ hnew
      exact ⟨⟨db.tallies.nextval, electionId⟩, by simp [insertTally], rfl⟩
  · intro tally htally
    have hids : ∀ id, candidateIds (insertTally db electionId
        (ctexts.map (candidateTally config))) id = candidateIds db id := fun _ => rfl
    rw [hids]
    rcases tallyEntriesOf_insertTally hcomplete htally with
      ⟨hold, hentries⟩ | ⟨rfl, hentries⟩
    · rw [hentries]
      exact hcomplete.candidates tally hold
    · rw [hentries, List.map_map]
      exact ⟨hsound.candidateIds_ne_nil hballot, hsound.groups_perm hballot hgroup⟩

/-- The rest of a tick: the elections of the list are not tallied yet. -/
theorem CompleteTallies.foldlM_generateTally {elections : List Int}
    (hcomplete : CompleteTallies db) (hsound : SoundStore config db)
    (hnodup : elections.Nodup) (hballots : ∀ electionId ∈ elections, HasBallot db electionId)
    (hnew : ∀ electionId ∈ elections, ∀ tally ∈ db.tallies.rows,
      tally.electionId ≠ electionId)
    (hfold : elections.foldlM (Server.generateTally config) db = some db') :
    CompleteTallies db' := by
  induction elections generalizing db with
  | nil =>
      simp only [List.foldlM_nil, Option.pure_def, Option.some.injEq] at hfold
      subst hfold
      exact hcomplete
  | cons electionId elections ih =>
      rw [List.foldlM_cons] at hfold
      obtain ⟨middle, hfirst, hrest⟩ := Option.bind_eq_some_iff.mp hfold
      obtain ⟨hother, hnodup⟩ := List.nodup_cons.mp hnodup
      have htallied := generateTally_tallied hfirst
      refine ih (hcomplete.generateTally hsound (hballots electionId (by simp))
        (hnew electionId (by simp)) hfirst) (hsound.of_tallied htallied) hnodup ?_
        (htallied.remaining_new hother hnew) hrest
      intro other hmem
      rw [HasBallot, htallied.ballots]
      exact hballots other (by simp [hmem])

end Tick

/-- A tick comes when every election still without a tally has a stored ballot. -/
def VotedTick (world : TallyWorld) : TallyEvent → Prop
  | .tick => ∀ electionId ∈ untallied world.db, HasBallot world.db electionId
  | _ => True

structure VotedWorld (config : Config) (world : TallyWorld) : Prop
    extends SoundWorld config world where
  complete : CompleteTallies world.db

theorem VotedWorld.step {config : Config} {world world' : TallyWorld} {event : TallyEvent}
    (hworld : VotedWorld config world) (hstep : TallyStep config world event world')
    (hvoted : VotedTick world event) : VotedWorld config world' := by
  refine ⟨hworld.toSoundWorld.step hstep, ?_⟩
  obtain ⟨⟨hsound, _⟩, hcomplete⟩ := hworld
  cases hstep with
  | advance later hlater => exact hcomplete
  | check commandData commandSignature voterId pending hchecks => exact hcomplete
  | commit pending hpending =>
      exact ⟨hcomplete.one, hcomplete.entries, hcomplete.candidates⟩
  | tick db hgenerate =>
      exact hcomplete.foldlM_generateTally hsound (untallied_nodup world.db) hvoted
        (fun electionId hmem => (mem_untallied.mp hmem).2) hgenerate

/-- When ticks wait for a ballot in every untallied election, tallied elections are
reported as finalized in every reachable state. -/
theorem tallied_elections_final {config : Config} {start : Database}
    (hsound : SoundStore config start) (htallies : start.tallies.rows = [])
    (hentries : start.tallyEntries.rows = []) {now : Int} {world : TallyWorld}
    (hrun : Reaches (Restricted (TallyStep config) VotedTick) ⟨start, now, [], []⟩ world) :
    ReportedFinal world.db := by
  have hinitial : VotedWorld config ⟨start, now, [], []⟩ :=
    { sound := hsound
      accepted := by simp
      complete := .of_empty htallies hentries }
  have hfinal : VotedWorld config world := by
    apply hrun.invariant hinitial
    intro source event target hsource hrestricted
    exact hsource.step hrestricted.1 hrestricted.2
  exact hfinal.complete.reportedFinal

theorem tallied_elections_final_voted :
    ∃ db, generateTallies SmallElection.reference.config votedDatabase = some db ∧
      ReportedFinal db := by
  obtain ⟨db, hgenerate⟩ := exists_generateTallies_voted
  have hsound := (SoundStore.of_empty SmallElection.reference.database_ballots
    SmallElection.reference.database_entries).run votedDatabase_reached
  have hvoted : VotedTick ⟨votedDatabase, 11, [], []⟩ .tick := by
    intro electionId hmem
    have huntallied : untallied votedDatabase = [1] := rfl
    rw [huntallied, List.mem_singleton] at hmem
    subst hmem
    exact ⟨castEncryptedBallotRow (SmallElection.referencePending []) 1,
      List.mem_singleton.mpr rfl, rfl⟩
  have htick := TallyStep.tick ⟨votedDatabase, 11, [], []⟩ db hgenerate
  exact ⟨db, hgenerate,
    tallied_elections_final hsound rfl rfl (.single ⟨htick, hvoted⟩)⟩

/-- The tally of an election without ballots is reported as not finalized. -/
theorem empty_election_not_final :
    Reaches (TallyStep SmallElection.reference.config)
        ⟨SmallElection.reference.database, 11, [], []⟩ (tickedWorld 11) ∧
      ¬ReportedFinal (tickedWorld 11).db := by
  refine ⟨.single (tick_small 11), fun hfinal => ?_⟩
  obtain ⟨message, hmessage, hfinalized, _⟩ := hfinal ⟨1, 1⟩ (List.mem_singleton.mpr rfl)
    SmallElection.reference.election (List.mem_singleton.mpr rfl) rfl
  obtain ⟨_, htally, _, _⟩ := electionMessage_fields hmessage
  have hdefault : electionTally talliedSmall 1 = some .default := rfl
  rw [show electionTally talliedSmall 1 = _ from htally, Option.some.injEq] at hdefault
  rw [hdefault] at hfinalized
  exact absurd hfinalized (by decide)

end VotingSystem.Server
