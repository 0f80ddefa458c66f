import VotingSystem.Server.SmallElection

namespace VotingSystem.Server

open VotingSystem.Data VotingSystem.Crypto VotingSystem.Protos VotingSystem.Storage

/-! Which commands write. -/

/-- The two types whose empty cases fall through to the one of `CAST_BALLOT`. -/
def FallsThrough (type : UInt32) : Prop :=
  type = CommandType.getPlaintextBallot.value ∨ type = CommandType.getEncryptedBallot.value

instance (type : UInt32) : Decidable (FallsThrough type) :=
  inferInstanceAs (Decidable (_ ∨ _))

def BallotAccepted (config : Config) (currTime : Int) (db : Database) (command : Command)
    (voterId : Int) : Prop :=
  ∃ ballot, Accepted config db
    ⟨voterId, currTime, ballot, command.data, command.signature⟩

theorem stores_iff {lib : Libraries} {config : Config} {currTime : Int} {db : Database}
    {bytes : Bytes} {command : Command} {voterId : Int}
    (hauth : authenticate lib db bytes = .ok (command, voterId)) :
    (∃ command pending, Stores lib config currTime db bytes command pending) ↔
      handlerOf command.type = .castBallot ∧
        BallotAccepted config currTime db command voterId := by
  constructor
  · intro hexists
    obtain ⟨command', ⟨voterId', castAt, ballot, data, signature⟩, hstores⟩ := hexists
    have hsame := hstores.authenticated
    rw [hauth] at hsame
    simp only [Except.ok.injEq, Prod.mk.injEq] at hsame
    obtain ⟨rfl, rfl⟩ := hsame
    obtain ⟨_, hhandler, haccepted, rfl, rfl, rfl⟩ := hstores
    exact ⟨hhandler, ballot, haccepted⟩
  · intro hballot
    obtain ⟨hhandler, ballot, haccepted⟩ := hballot
    exact ⟨command, ⟨voterId, currTime, ballot, command.data, command.signature⟩,
      hauth, hhandler, haccepted, rfl, rfl, rfl⟩

/-- A command of another type than `CAST_BALLOT` leaves every table unchanged
unless it falls through to `castBallot` with an acceptable ballot. -/
theorem unchanged_of_type_ne_iff {lib : Libraries} {config : Config} {currTime : Int}
    {db : Database} {bytes : Bytes} {command : Command} {voterId : Int}
    (hauth : authenticate lib db bytes = .ok (command, voterId))
    (htype : command.type ≠ CommandType.castBallot.value) :
    (processCommand lib config currTime db bytes).2 = db ↔
      ¬(FallsThrough command.type ∧ BallotAccepted config currTime db command voterId) := by
  have hhandler : handlerOf command.type = .castBallot ↔ FallsThrough command.type := by
    rw [handlerOf_eq_castBallot_iff, FallsThrough]
    constructor
    · intro htypes
      rcases htypes with hplain | hencrypted | hcast
      · exact .inl hplain
      · exact .inr hencrypted
      · exact absurd hcast htype
    · intro hfalls
      rcases hfalls with hplain | hencrypted
      · exact .inl hplain
      · exact .inr (.inl hencrypted)
  rw [processCommand_unchanged_iff, stores_iff hauth, hhandler]

def readCommand : Command :=
  SmallElection.referenceVote CommandType.getEncryptedBallot.value []

theorem authenticate_readCommand :
    authenticate SmallElection.referenceLib SmallElection.reference.database
      (encode readCommand) = .ok (readCommand, 1) :=
  SmallElection.authenticate_encode rfl (SmallElection.reference_payload _ [])

theorem unchanged_of_type_ne_iff_readCommand :
    (processCommand SmallElection.referenceLib SmallElection.reference.config 5
        SmallElection.reference.database (encode readCommand)).2 =
          SmallElection.reference.database ↔
      ¬(FallsThrough readCommand.type ∧
        BallotAccepted SmallElection.reference.config 5 SmallElection.reference.database
          readCommand 1) :=
  unchanged_of_type_ne_iff authenticate_readCommand (by decide)

theorem readCommand_changes :
    readCommand.type ≠ CommandType.castBallot.value ∧
      authenticate SmallElection.referenceLib SmallElection.reference.database
        (encode readCommand) = .ok (readCommand, 1) ∧
      (processCommand SmallElection.referenceLib SmallElection.reference.config 5
        SmallElection.reference.database (encode readCommand)).2 ≠
          SmallElection.reference.database := by
  refine ⟨by decide, authenticate_readCommand, ?_⟩
  have hstores : Stores SmallElection.referenceLib SmallElection.reference.config 5
      SmallElection.reference.database (encode readCommand) readCommand
      (SmallElection.referencePending []) :=
    SmallElection.reference_stores (handlerOf_eq_castBallot_iff.mpr (.inr (.inl rfl)))
      (Transparent.keyPair 0).privKey []
  rw [hstores.processCommand_eq]
  exact insertBallot_ne _ _

end VotingSystem.Server
