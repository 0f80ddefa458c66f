import VotingSystem.Data.Queue
import VotingSystem.Server.StoredBallots
import VotingSystem.Server.TallyGenerator

namespace VotingSystem.Client

open VotingSystem.Data VotingSystem.Crypto VotingSystem.Wire VotingSystem.Protos
open VotingSystem.Storage VotingSystem.Server

/-! `create_voter` of the client, which writes into the tables of a running server. -/

def createVoter (db : Database) (pubKey : Bytes) : Database :=
  { db with voters := db.voters.insert fun id => ⟨id, 1, pubKey⟩ }

inductive RollEvent
  | process (currTime : Int) (bytes : Bytes)
  | tick
  | createVoter (pubKey : Bytes)
  deriving DecidableEq

section Step

variable (lib : Libraries) (config : Server.Config)

inductive RollStep : Database → RollEvent → Database → Prop
  | process (db : Database) (currTime : Int) (bytes : Bytes) :
      RollStep db (.process currTime bytes) (processCommand lib config currTime db bytes).2
  | tick (db db' : Database) (hgenerate : generateTallies config db = some db') :
      RollStep db .tick db'
  | createVoter (db : Database) (pubKey : Bytes) :
      RollStep db (.createVoter pubKey) (createVoter db pubKey)

end Step

/-- The rows of the table `VOTERS` with a key, which is not unique there. -/
def registrations (db : Database) (pubKey : Bytes) : Nat :=
  db.voters.rows.countP fun voter => voter.smartcardPublicKey = pubKey

theorem exists_voterOfKey?_iff {db : Database} {pubKey : Bytes} :
    (∃ voterId, voterOfKey? db pubKey = some voterId) ↔ registrations db pubKey = 1 := by
  rw [registrations, List.countP_eq_length_filter, List.length_eq_one_iff]
  unfold voterOfKey?
  constructor
  · rintro ⟨voterId, hvoter⟩
    split at hvoter
    · rename_i voter hsingle
      exact ⟨voter, hsingle⟩
    · cases hvoter
  · rintro ⟨voter, hsingle⟩
    exact ⟨voter.id, by rw [hsingle]⟩

theorem registrations_createVoter (db : Database) (pubKey key : Bytes) :
    registrations (createVoter db pubKey) key =
      registrations db key + if pubKey = key then 1 else 0 := by
  rw [registrations, createVoter, SerialTable.insert_rows, List.countP_append,
    List.countP_singleton]
  simp [registrations]

section Steps

variable {lib : Libraries} {config : Server.Config} {db db' : Database} {event : RollEvent}

theorem registrations_step (hstep : RollStep lib config db event db') (pubKey : Bytes) :
    registrations db' pubKey =
      registrations db pubKey + if event = .createVoter pubKey then 1 else 0 := by
  cases hstep with
  | process currTime bytes =>
      have hsetup := processCommand_sameSetup lib config currTime db bytes
      simp [registrations, hsetup.voters]
  | tick db' hgenerate =>
      have hsetup := (generateTallies_tallied hgenerate).setup
      simp [registrations, hsetup.voters]
  | createVoter key =>
      rw [registrations_createVoter]
      simp

/-- A command that stored a ballot, signed with a key that was registered once. -/
structure StoredBy (lib : Libraries) (db : Database) (event : RollEvent)
    (ballot : CastEncryptedBallotRow) (command : Command) : Prop where
  processed : ∃ currTime bytes, event = .process currTime bytes ∧
    Command.decode bytes = some command
  castCommandData : ballot.castCommandData = command.data
  voterSignature : ballot.voterSignature = command.signature
  verified : rsaVerify lib.wolf (typeAndData command.type command.data) command.signature
    command.pubkey = true
  registered : registrations db command.pubkey = 1
  voter : ∃ voter ∈ db.voters.rows, voter.id = ballot.voterId ∧
    voter.smartcardPublicKey = command.pubkey

theorem ballots_step (hstep : RollStep lib config db event db') {ballot : CastEncryptedBallotRow}
    (hballot : ballot ∈ db'.castEncryptedBallots.rows) :
    ballot ∈ db.castEncryptedBallots.rows ∨ ∃ command, StoredBy lib db event ballot command := by
  cases hstep with
  | process currTime bytes =>
      rcases processCommand_cases lib config currTime db bytes with
        hsame | ⟨command, pending, hstores, hresult⟩
      · rw [hsame] at hballot
        exact .inl hballot
      · rw [hresult, insertBallot_ballots] at hballot
        rcases List.mem_append.mp hballot with hold | hnew
        · exact .inl hold
        · rw [List.mem_singleton.mp hnew]
          obtain ⟨hdecode, hvoter, hverified⟩ := authenticate_eq_ok.mp hstores.authenticated
          exact .inr ⟨command, ⟨currTime, bytes, rfl, hdecode⟩, hstores.commandData,
            hstores.commandSignature, hverified, exists_voterOfKey?_iff.mp ⟨_, hvoter⟩,
            voterOfKey?_eq_some hvoter⟩
  | tick db' hgenerate =>
      rw [(generateTallies_tallied hgenerate).ballots] at hballot
      exact .inl hballot
  | createVoter key => exact .inl hballot

end Steps

section Runs

variable {lib : Libraries} {config : Server.Config} {start db : Database}
variable {labels : List RollEvent}

theorem registrations_run (hrun : Trace (RollStep lib config) start labels db)
    (pubKey : Bytes) :
    registrations db pubKey = registrations start pubKey + labels.count (.createVoter pubKey) :=
  hrun.count_eq (fun db => registrations db pubKey) (.createVoter pubKey)
    fun hstep => registrations_step hstep pubKey

end Runs

/-- While voters are created and commands processed in any order, a key belongs to a voter
exactly when it was registered once, and every ballot that is stored was signed with a key
that had been registered once by then. -/
theorem registered_once_of_run {lib : Libraries} {config : Server.Config} {start db : Database}
    {labels : List RollEvent} (hrun : Trace (RollStep lib config) start labels db) :
    (∀ pubKey, (∃ voterId, voterOfKey? db pubKey = some voterId) ↔
        registrations start pubKey + labels.count (.createVoter pubKey) = 1) ∧
      ∀ ballot ∈ db.castEncryptedBallots.rows, ballot ∈ start.castEncryptedBallots.rows ∨
        ∃ earlier event later source command, labels = earlier ++ event :: later ∧
          Trace (RollStep lib config) start earlier source ∧
            StoredBy lib source event ballot command ∧
              registrations start command.pubkey +
                earlier.count (.createVoter command.pubkey) = 1 := by
  constructor
  · intro pubKey
    rw [exists_voterOfKey?_iff, registrations_run hrun]
  · intro ballot hballot
    rcases hrun.exists_made (fun db ballot => ballot ∈ db.castEncryptedBallots.rows)
        (fun db event ballot => ∃ command, StoredBy lib db event ballot command)
        (fun hstep hpresent => ballots_step hstep hpresent) hballot with
      hstart | ⟨earlier, event, later, source, rfl, hsource, command, hstored⟩
    · exact .inl hstart
    · refine .inr ⟨earlier, event, later, source, command, rfl, hsource, hstored, ?_⟩
      rw [← registrations_run hsource]
      exact hstored.registered

/-- The key of a voter who has voted is registered again. -/
theorem registered_once_of_run_twice :
    ∃ db, (¬∃ voterId, voterOfKey? db SmallElection.reference.voterKey = some voterId) ∧
      ∃ ballot ∈ db.castEncryptedBallots.rows,
        ∃ earlier event later source command,
          [RollEvent.process 5
              (encode (SmallElection.referenceVote CommandType.castBallot.value [])),
            .createVoter SmallElection.reference.voterKey] = earlier ++ event :: later ∧
          Trace (RollStep SmallElection.referenceLib SmallElection.reference.config)
              SmallElection.reference.database earlier source ∧
            StoredBy SmallElection.referenceLib source event ballot command ∧
              registrations SmallElection.reference.database command.pubkey +
                earlier.count (.createVoter command.pubkey) = 1 := by
  have hvote := @RollStep.process SmallElection.referenceLib SmallElection.reference.config
    SmallElection.reference.database 5
    (encode (SmallElection.referenceVote CommandType.castBallot.value []))
  rw [processCommand_vote] at hvote
  have hrun := (Trace.refl.tail hvote).tail
    (.createVoter votedDatabase SmallElection.reference.voterKey)
  obtain ⟨hkeys, hballots⟩ := registered_once_of_run hrun
  have hrows : (createVoter votedDatabase
      SmallElection.reference.voterKey).castEncryptedBallots.rows =
        [castEncryptedBallotRow (SmallElection.referencePending []) 1] := rfl
  rw [hrows] at hballots
  refine ⟨createVoter votedDatabase SmallElection.reference.voterKey, ?_,
    castEncryptedBallotRow (SmallElection.referencePending []) 1, ?_, ?_⟩
  · rw [hkeys]
    simp [registrations, SmallElection.voter]
  · rw [hrows]
    exact List.mem_singleton.mpr rfl
  · rcases hballots _ (List.mem_singleton.mpr rfl) with hstart | hmade
    · rw [SmallElection.database_ballots] at hstart
      cases hstart
    · exact hmade

end VotingSystem.Client
