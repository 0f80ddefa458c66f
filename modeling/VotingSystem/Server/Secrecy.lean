import VotingSystem.Crypto.Combination
import VotingSystem.Server.BallotValidity
import VotingSystem.Server.PublicRecord

namespace VotingSystem.Server

open VotingSystem.Data VotingSystem.Crypto VotingSystem.Number VotingSystem.Protos
open VotingSystem.Storage

/-! What the answer to a ballot made from the ciphertexts of another one tells about
that ballot. -/

/-- The ciphertexts that `getEncryptedBallots` returns for a stored ballot. -/
def published (db : Database) (row : CastEncryptedBallotRow) : List Bytes :=
  (castEncryptedBallotMessage db (Int32.ofInt row.electionId) row).encryptedBallot
    |>.encryptedBallotEntries.map EncryptedBallotEntry.encryptedValue

structure ForgedEntry (modulus : Modulus) (size : Nat) where
  id : Int32
  candidateId : Int32
  combination : Combination modulus size

/-- How to make a ballot from the `size` ciphertexts of another one. -/
structure Strategy (modulus : Modulus) (size : Nat) where
  electionId : Int32
  entries : List (ForgedEntry modulus size)

namespace Strategy

variable {modulus : Modulus} {size : Nat} (strategy : Strategy modulus size)

def ballot (ctexts : List Bytes) : EncryptedBallot where
  electionId := strategy.electionId
  encryptedBallotEntries := strategy.entries.map fun entry =>
    ⟨entry.id, entry.candidateId, entry.combination.run ctexts⟩

def pending (ctexts : List Bytes) (currTime voterId : Int) (signature : Bytes) :
    PendingBallot where
  voterId := voterId
  castAt := currTime
  ballot := strategy.ballot ctexts
  commandData := encode (strategy.ballot ctexts)
  commandSignature := signature

/-- What the entries encrypt, as the server reads it. -/
def choices (values : Fin size → Sealed modulus) : List UInt64 :=
  strategy.entries.map fun entry => (entry.combination.result values).choice

/-- The checks of `castBallot` that look at no ciphertext. -/
structure Admitted (db : Database) (currTime voterId : Int) : Prop where
  voter : ∃ voter ∈ db.voters.rows, voter.id = voterId ∧
    (eligibilityRows db strategy.electionId.toInt currTime voter.voterGroupId).length = 1
  candidates : (strategy.entries.map fun entry => entry.candidateId.toInt) =
    candidateIds db strategy.electionId.toInt

end Strategy

def Accepts (config : Config) (db : Database) (currTime voterId : Int)
    (ballot : EncryptedBallot) (signature : Bytes) : Prop :=
  ∃ pending, castBallotChecks config db currTime (encode ballot) signature voterId =
    .ok pending

section Answer

variable {config : Config} {key : KeyPair} {size : Nat}

theorem decryptEntry_ciphertext (hkey : config.HoldsKey key) (value : Sealed key.modulus) :
    decryptEntry config value.ciphertext = value.choice := by
  have hdecrypt := value.paillierDec_ciphertext key.n_lt
  unfold decryptEntry
  rw [hkey.pub, hkey.privP, hkey.privQ]
  exact hdecrypt

theorem Strategy.decrypted_ballot (hkey : config.HoldsKey key)
    (strategy : Strategy key.modulus size) (values : Fin size → Sealed key.modulus) :
    ((strategy.ballot (List.ofFn fun idx => (values idx).ciphertext)).encryptedBallotEntries.map
        fun entry => decryptEntry config entry.encryptedValue) = strategy.choices values := by
  rw [ballot, List.map_map, choices]
  apply List.map_congr_left
  intro entry _
  rw [Function.comp_apply, Combination.run_eq_ciphertext key.n_lt,
    decryptEntry_ciphertext hkey]

/-- The ballot of a strategy is accepted exactly when it is admitted and what it
encrypts is one-hot. -/
theorem Strategy.accepted_iff (hkey : config.HoldsKey key)
    (strategy : Strategy key.modulus size) (values : Fin size → Sealed key.modulus)
    (db : Database) (currTime voterId : Int) (signature : Bytes) :
    Accepted config db
        (strategy.pending (List.ofFn fun idx => (values idx).ciphertext) currTime voterId
          signature) ↔
      strategy.Admitted db currTime voterId ∧ OneHot (strategy.choices values) := by
  have hdecrypted := strategy.decrypted_ballot hkey values
  have hcandidates : ∀ ctexts,
      ((strategy.ballot ctexts).encryptedBallotEntries.map fun entry =>
          entry.candidateId.toInt) =
        strategy.entries.map fun entry => entry.candidateId.toInt := by
    intro ctexts
    rw [ballot, List.map_map]
    rfl
  constructor
  · intro haccepted
    obtain ⟨_, hvoter, hids, honeHot⟩ := haccepted
    rw [pending, hcandidates] at hids
    rw [pending, hdecrypted] at honeHot
    exact ⟨⟨hvoter, hids⟩, honeHot⟩
  · rintro ⟨⟨hvoter, hids⟩, honeHot⟩
    refine ⟨EncryptedBallot.decode_encode _, hvoter, ?_, ?_⟩
    · rw [pending, hcandidates]
      exact hids
    · rw [pending, hdecrypted]
      exact honeHot

theorem accepts_iff_accepted (strategy : Strategy key.modulus size) (ctexts : List Bytes)
    (db : Database) (currTime voterId : Int) (signature : Bytes) :
    Accepts config db currTime voterId (strategy.ballot ctexts) signature ↔
      Accepted config db (strategy.pending ctexts currTime voterId signature) := by
  constructor
  · rintro ⟨pending, hchecks⟩
    obtain ⟨haccepted, rfl, rfl, hdata, rfl⟩ := castBallotChecks_eq_ok.mp hchecks
    have hballot := haccepted.decoded
    rw [hdata, EncryptedBallot.decode_encode, Option.some.injEq] at hballot
    obtain ⟨voterId, castAt, ballot, commandData, commandSignature⟩ := pending
    simp only at hballot hdata
    subst hballot hdata
    exact haccepted
  · intro haccepted
    exact ⟨_, castBallotChecks_eq_ok.mpr ⟨haccepted, rfl, rfl, rfl, rfl⟩⟩

end Answer

/-- Two states that are equal except for the ciphertexts, the command and the
signature of one ballot. -/
structure SameButBallot (db db' : Database) (row row' : CastEncryptedBallotRow) : Prop where
  setup : db.SameSetup db'
  stored : row ∈ db.castEncryptedBallots.rows
  stored' : row' ∈ db'.castEncryptedBallots.rows
  columns : (row'.id, row'.voterId, row'.castAt, row'.electionId) =
    (row.id, row.voterId, row.castAt, row.electionId)
  ballots : (db'.castEncryptedBallots.rows.filter fun other => other.id ≠ row.id) =
    db.castEncryptedBallots.rows.filter fun other => other.id ≠ row.id
  entries : (db'.castEncryptedBallotEntries.rows.filter fun entry =>
      entry.castEncryptedBallotId ≠ row.id) =
    db.castEncryptedBallotEntries.rows.filter fun entry =>
      entry.castEncryptedBallotId ≠ row.id
  shape : (db'.castEncryptedBallotEntries.rows.map fun entry =>
      (entry.id, entry.castEncryptedBallotId, entry.candidateId)) =
    db.castEncryptedBallotEntries.rows.map fun entry =>
      (entry.id, entry.castEncryptedBallotId, entry.candidateId)
  tallies : db'.tallies = db.tallies
  tallyEntries : db'.tallyEntries = db.tallyEntries

theorem Strategy.Admitted.of_sameSetup {modulus : Modulus} {size : Nat}
    {strategy : Strategy modulus size} {db db' : Database} {currTime voterId : Int}
    (hadmitted : strategy.Admitted db currTime voterId) (hsetup : db.SameSetup db') :
    strategy.Admitted db' currTime voterId := by
  obtain ⟨hvoter, hids⟩ := hadmitted
  constructor
  · rw [hsetup.voters]
    simpa only [eligibilityRows_of_sameSetup hsetup] using hvoter
  · rwa [candidateIds_of_sameSetup hsetup]

/-- The answers agree exactly when the ballot fails a check that looks at no
ciphertext, or the strategy makes something one-hot of both choices or of neither. -/
theorem accepts_agree_iff {config : Config} {key : KeyPair} (hkey : config.HoldsKey key)
    {db db' : Database} {row row' : CastEncryptedBallotRow}
    (hsame : SameButBallot db db' row row') {size : Nat}
    {values values' : Fin size → Sealed key.modulus}
    (hpublished : published db row = List.ofFn fun idx => (values idx).ciphertext)
    (hpublished' : published db' row' = List.ofFn fun idx => (values' idx).ciphertext)
    (strategy : Strategy key.modulus size) (currTime voterId : Int)
    (signature signature' : Bytes) :
    (Accepts config db currTime voterId (strategy.ballot (published db row)) signature ↔
        Accepts config db' currTime voterId (strategy.ballot (published db' row'))
          signature') ↔
      (strategy.Admitted db currTime voterId →
        (OneHot (strategy.choices values) ↔ OneHot (strategy.choices values'))) := by
  have hadmitted : strategy.Admitted db' currTime voterId ↔
      strategy.Admitted db currTime voterId :=
    ⟨fun h => h.of_sameSetup hsame.setup.symm, fun h => h.of_sameSetup hsame.setup⟩
  rw [accepts_iff_accepted, accepts_iff_accepted, hpublished, hpublished',
    strategy.accepted_iff hkey, strategy.accepted_iff hkey, hadmitted]
  exact and_congr_right_iff

/-! Two states that differ in what one voter chose. -/

section Insert

variable {config : Config} {db : Database} {pending pending' : PendingBallot}

theorem published_insertBallot (hsound : SoundStore config db)
    (haccepted : Accepted config db pending) :
    published (insertBallot db pending)
        (castEncryptedBallotRow pending db.castEncryptedBallots.nextval) =
      pending.ballot.encryptedBallotEntries.map EncryptedBallotEntry.encryptedValue := by
  have hrows := ballotEntryRows_insertBallot hsound haccepted
  simp only [published, castEncryptedBallotMessage, castEncryptedBallotRow, hrows]
  rw [List.map_map]
  exact newEntries_encryptedValue db pending

theorem filter_newEntries (db : Database) (pending : PendingBallot) :
    ((newEntries db pending).filter fun entry =>
      entry.castEncryptedBallotId ≠ db.castEncryptedBallots.nextval) = [] := by
  apply List.filter_eq_nil_iff.mpr
  intro entry hentry
  simpa using castEncryptedBallotId_of_mem_newEntries hentry

theorem SameButBallot.insertBallot (hvoter : pending'.voterId = pending.voterId)
    (hcastAt : pending'.castAt = pending.castAt)
    (helection : pending'.ballot.electionId = pending.ballot.electionId)
    (hcandidates :
      (pending'.ballot.encryptedBallotEntries.map EncryptedBallotEntry.candidateId) =
        pending.ballot.encryptedBallotEntries.map EncryptedBallotEntry.candidateId) :
    SameButBallot (insertBallot db pending) (insertBallot db pending')
      (castEncryptedBallotRow pending db.castEncryptedBallots.nextval)
      (castEncryptedBallotRow pending' db.castEncryptedBallots.nextval) where
  setup := ⟨rfl, rfl, rfl, rfl⟩
  stored := by simp [insertBallot_ballots]
  stored' := by simp [insertBallot_ballots]
  columns := by simp only [castEncryptedBallotRow, hvoter, hcastAt, helection]
  ballots := by
    simp only [insertBallot_ballots, List.filter_append, castEncryptedBallotRow]
    simp
  entries := by
    rw [insertBallot_entries, insertBallot_entries, List.filter_append, List.filter_append,
      castEncryptedBallotRow, filter_newEntries, filter_newEntries]
  shape := by
    rw [insertBallot_entries, insertBallot_entries, List.map_append, List.map_append]
    congr 1
    exact map_serialRows_congr _ _ EncryptedBallotEntry.candidateId
      (fun entry entry' next hcandidate => by
        simp only [castEncryptedBallotEntryRow, hcandidate]) _ hcandidates
  tallies := rfl
  tallyEntries := rfl

end Insert

/-! The small election with a second voter and a second candidate. -/

def pairDatabase : Database :=
  { SmallElection.reference.database with
    voters := SmallElection.reference.database.voters.insert
      fun id => ⟨id, 1, (Transparent.keyPair 2).pubKey⟩
    candidates := SmallElection.reference.database.candidates.insert
      fun id => ⟨id, 1, [], [0]⟩ }

theorem pairDatabase_intColumns : pairDatabase.IntColumns :=
  { reference_intColumns with
    voters := by
      intro row hrow
      rcases List.mem_append.mp hrow with hbefore | hnew
      · exact reference_intColumns.voters row hbefore
      · obtain rfl := List.mem_singleton.mp hnew
        decide
    candidates := by
      intro row hrow
      rcases List.mem_append.mp hrow with hbefore | hnew
      · exact reference_intColumns.candidates row hbefore
      · obtain rfl := List.mem_singleton.mp hnew
        decide }

/-- What `paillierEnc` encrypts, with the factor one. -/
def sealedVote (vote : UInt64) : Sealed KeyPair.reference.modulus where
  message := encodedPlaintext vote
  blind := 1
  coprime := Nat.coprime_one_left _

theorem choice_sealedVote (vote : UInt64) : (sealedVote vote).choice = vote := by
  have hround := @paillierDec_paillierEnc KeyPair.reference.modulus KeyPair.reference.n_large
    KeyPair.reference.n_lt vote (.drawn 1) (Nat.coprime_one_left _)
  rw [paillierEnc_eq KeyPair.reference.n_lt] at hround
  exact ((sealedVote vote).paillierDec_ciphertext KeyPair.reference.n_lt).symm.trans hround

/-- The honest ballot of two votes. -/
def pairStrategy (first second : UInt64) : Strategy KeyPair.reference.modulus 0 where
  electionId := 1
  entries := [⟨0, 1, .fresh (sealedVote first)⟩, ⟨0, 2, .fresh (sealedVote second)⟩]

/-- The first entry is a copy, the second one a fresh zero. -/
def copyFirst : Strategy KeyPair.reference.modulus 2 where
  electionId := 1
  entries := [⟨0, 1, .copy 0⟩, ⟨0, 2, .fresh (sealedVote 0)⟩]

def pairVotes (first second : UInt64) : Fin 2 → Sealed KeyPair.reference.modulus :=
  ![sealedVote first, sealedVote second]

def pairPending (first second : UInt64) : PendingBallot :=
  (pairStrategy first second).pending [] 5 1 (Transparent.signature 1 256 [])

/-- The state after the first voter's ballot. -/
def pairState (first second : UInt64) : Database :=
  insertBallot pairDatabase (pairPending first second)

def pairRow (first second : UInt64) : CastEncryptedBallotRow :=
  castEncryptedBallotRow (pairPending first second) pairDatabase.castEncryptedBallots.nextval

theorem reference_holdsKey : SmallElection.reference.config.HoldsKey .reference :=
  ⟨rfl, rfl, rfl⟩

theorem pair_admitted {size : Nat} {strategy : Strategy KeyPair.reference.modulus size}
    (helection : strategy.electionId = 1)
    (hcandidates : (strategy.entries.map fun entry => entry.candidateId.toInt) = [1, 2])
    {voterId : Int} (hvoter : ∃ voter ∈ pairDatabase.voters.rows,
      voter.id = voterId ∧ voter.voterGroupId = 1) :
    strategy.Admitted pairDatabase 5 voterId where
  voter := by
    obtain ⟨voter, hvoter, hid, hgroup⟩ := hvoter
    refine ⟨voter, hvoter, hid, ?_⟩
    rw [helection, hgroup]
    rfl
  candidates := by
    rw [helection, hcandidates]
    rfl

theorem pairStrategy_admitted (first second : UInt64) :
    (pairStrategy first second).Admitted pairDatabase 5 1 :=
  pair_admitted rfl rfl ⟨_, List.mem_cons_self, rfl, rfl⟩

theorem copyFirst_admitted : copyFirst.Admitted pairDatabase 5 2 :=
  pair_admitted rfl rfl ⟨_, List.mem_cons_of_mem _ List.mem_cons_self, rfl, rfl⟩

theorem choices_pairStrategy (first second : UInt64)
    (values : Fin 0 → Sealed KeyPair.reference.modulus) :
    (pairStrategy first second).choices values = [first, second] := by
  simp only [Strategy.choices, pairStrategy, List.map_cons, List.map_nil, Combination.result,
    choice_sealedVote]

theorem choices_copyFirst (first second : UInt64) :
    copyFirst.choices (pairVotes first second) = [first, 0] := by
  simp only [Strategy.choices, copyFirst, List.map_cons, List.map_nil, Combination.result,
    pairVotes, Matrix.cons_val_zero, choice_sealedVote]

section Pair

variable {first second : UInt64} (honeHot : OneHot [first, second])

include honeHot

theorem pairStrategy_accepted {db : Database} {voterId : Int}
    (hadmitted : (pairStrategy first second).Admitted db 5 voterId) (signature : Bytes) :
    Accepted SmallElection.reference.config db
      ((pairStrategy first second).pending [] 5 voterId signature) := by
  have haccepted := (pairStrategy first second).accepted_iff reference_holdsKey Fin.elim0
    db 5 voterId signature
  rw [List.ofFn_zero, choices_pairStrategy] at haccepted
  exact haccepted.mpr ⟨hadmitted, honeHot⟩

theorem pairPending_accepted :
    Accepted SmallElection.reference.config pairDatabase (pairPending first second) :=
  pairStrategy_accepted honeHot (pairStrategy_admitted first second) _

theorem pairState_reached :
    Reaches (CommandStep SmallElection.referenceLib SmallElection.reference.config)
      pairDatabase (pairState first second) := by
  let command : Command := ⟨CommandType.castBallot.value, (pairPending first second).commandData,
    (Transparent.keyPair 1).pubKey, Transparent.signature 1 256 []⟩
  have hpayload := Transparent.signedPayload?_signature 1 []
  have hstores : Stores SmallElection.referenceLib SmallElection.reference.config 5
      pairDatabase (encode command) command (pairPending first second) :=
    { authenticated := authenticate_eq_ok.mpr
        ⟨Command.decode_encode _, rfl, (rsaVerify_iff _ _ _ _).mpr ⟨_, hpayload⟩⟩
      dispatched := handlerOf_eq_castBallot_iff.mpr (.inr (.inr rfl))
      accepted := pairPending_accepted honeHot
      castAt := rfl
      commandData := rfl
      commandSignature := rfl }
  have hstep := @CommandStep.process SmallElection.referenceLib
    SmallElection.reference.config pairDatabase 5 (encode command)
  rw [hstores.processCommand_eq] at hstep
  exact .single hstep

theorem published_pairState :
    published (pairState first second) (pairRow first second) =
      List.ofFn fun idx => (pairVotes first second idx).ciphertext := by
  have hsound : SoundStore SmallElection.reference.config pairDatabase := .of_empty rfl rfl
  have hpublished := published_insertBallot hsound (pairPending_accepted honeHot)
  rw [pairState, pairRow, hpublished]
  simp [pairPending, Strategy.pending, Strategy.ballot, pairStrategy, Combination.run,
    pairVotes]

end Pair

theorem pairState_same (first second first' second' : UInt64) :
    SameButBallot (pairState first second) (pairState first' second')
      (pairRow first second) (pairRow first' second') := by
  have hcandidates : ∀ first second,
      (pairPending first second).ballot.encryptedBallotEntries.map
        EncryptedBallotEntry.candidateId = [1, 2] := fun _ _ => by
    simp [pairPending, Strategy.pending, Strategy.ballot, pairStrategy]
  have helection : ∀ first second, (pairPending first second).ballot.electionId = 1 :=
    fun _ _ => rfl
  exact .insertBallot (by simp only [pairPending, Strategy.pending])
    (by simp only [pairPending, Strategy.pending]) (by rw [helection, helection])
    (by rw [hcandidates, hcandidates])

theorem oneHot_first : OneHot [1, 0] := ⟨by simp, by simp⟩

theorem oneHot_second : OneHot [0, 1] := ⟨by simp, by simp⟩

theorem accepts_agree_iff_pair :
    (Accepts SmallElection.reference.config (pairState 1 0) 5 2
          (copyFirst.ballot (published (pairState 1 0) (pairRow 1 0))) [] ↔
        Accepts SmallElection.reference.config (pairState 0 1) 5 2
          (copyFirst.ballot (published (pairState 0 1) (pairRow 0 1))) []) ↔
      (copyFirst.Admitted (pairState 1 0) 5 2 →
        (OneHot (copyFirst.choices (pairVotes 1 0)) ↔
          OneHot (copyFirst.choices (pairVotes 0 1)))) :=
  accepts_agree_iff reference_holdsKey (pairState_same 1 0 0 1)
    (published_pairState oneHot_first) (published_pairState oneHot_second) copyFirst 5 2 [] []

theorem accepts_copyFirst_iff {first second : UInt64} (honeHot : OneHot [first, second]) :
    Accepts SmallElection.reference.config (pairState first second) 5 2
        (copyFirst.ballot (published (pairState first second) (pairRow first second))) [] ↔
      OneHot [first, 0] := by
  have hadmitted : copyFirst.Admitted (pairState first second) 5 2 :=
    copyFirst_admitted.of_sameSetup (insertBallot_sameSetup _ _)
  have haccepted := copyFirst.accepted_iff reference_holdsKey (pairVotes first second)
    (pairState first second) 5 2 []
  rw [accepts_iff_accepted, published_pairState honeHot, haccepted, choices_copyFirst]
  exact and_iff_right hadmitted

/-- A copy of the other voter's first ciphertext beside an encrypted zero is
accepted exactly when that voter chose the first candidate. -/
theorem copied_ciphertext_reveals_choice :
    Reaches (CommandStep SmallElection.referenceLib SmallElection.reference.config)
        pairDatabase (pairState 1 0) ∧
      Reaches (CommandStep SmallElection.referenceLib SmallElection.reference.config)
        pairDatabase (pairState 0 1) ∧
        SameButBallot (pairState 1 0) (pairState 0 1) (pairRow 1 0) (pairRow 0 1) ∧
          Accepts SmallElection.reference.config (pairState 1 0) 5 2
            (copyFirst.ballot (published (pairState 1 0) (pairRow 1 0))) [] ∧
            ¬Accepts SmallElection.reference.config (pairState 0 1) 5 2
              (copyFirst.ballot (published (pairState 0 1) (pairRow 0 1))) [] := by
  refine ⟨pairState_reached oneHot_first, pairState_reached oneHot_second,
    pairState_same 1 0 0 1, (accepts_copyFirst_iff oneHot_first).mpr oneHot_first,
    fun haccepts => ?_⟩
  have hcount := ((accepts_copyFirst_iff oneHot_second).mp haccepts).count_one
  simp at hcount

end VotingSystem.Server
