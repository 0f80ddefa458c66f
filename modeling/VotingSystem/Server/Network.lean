import VotingSystem.Server.Pool
import VotingSystem.Server.Refinement

namespace VotingSystem.Server

open VotingSystem.Data VotingSystem.Crypto VotingSystem.Protos VotingSystem.Storage
open VotingSystem.Spec VotingSystem.Wire

/-! The whole server: bytes on sockets, the workers that take them off, the tables they
share with the clock, and time. A cast is checked in one step of its worker and committed in
a later one, with steps of the others in between. -/

/-- `checked` keeps the casts between their checks and their commit, each with the socket of
its worker. -/
structure NetworkWorld where
  pool : PoolWorld Database
  now : Int
  checked : List (Nat × PendingBallot)
  reads : List (Int × List Int)

inductive NetworkEvent
  | pool (event : PoolEvent)
  | check (sock : Nat)
  | commit (sock : Nat) (response : Option Bytes)
  | advance (later : Int)
  | tick

def NetworkWorld.start (db : Database) (numThreads : Nat) (now : Int) : NetworkWorld where
  pool := .start db numThreads
  now := now
  checked := []
  reads := []

section Step

variable (lib : Libraries) (config : Config)

/-- A command that stores no ballot. -/
def answersOnly (currTime : Int) (db : Database) (msgBuf : Bytes) (response : Option Bytes)
    (db' : Database) : Prop :=
  processCommand lib config currTime db msgBuf = (response, db) ∧ db' = db

def commits (pending : PendingBallot) (db : Database) (_ : Bytes) (response : Option Bytes)
    (db' : Database) : Prop :=
  response = castResponse lib config db pending ∧ db' = insertBallot db pending

/-- A worker whose cast is checked does nothing before the commit. -/
inductive NetworkStep : NetworkWorld → NetworkEvent → NetworkWorld → Prop
  | pool (world : NetworkWorld) (event : PoolEvent) (pool : PoolWorld Database)
      (hfree : ∀ sock response, event = .process sock response →
        ∀ cast ∈ world.checked, cast.1 ≠ sock)
      (hstep : PoolStep (answersOnly lib config world.now) world.pool event pool) :
      NetworkStep world (.pool event) { world with pool := pool }
  | check (world : NetworkWorld) (sock : Nat) (msgBuf : Bytes) (command : Command)
      (pending : PendingBallot) (hworker : .process sock msgBuf ∈ world.pool.workers)
      (hfree : ∀ cast ∈ world.checked, cast.1 ≠ sock)
      (hstores : Stores lib config world.now world.pool.store msgBuf command pending) :
      NetworkStep world (.check sock)
        { world with checked := (sock, pending) :: world.checked }
  | commit (world : NetworkWorld) (sock : Nat) (pending : PendingBallot)
      (response : Option Bytes) (pool : PoolWorld Database)
      (hchecked : (sock, pending) ∈ world.checked)
      (hstep : PoolStep (commits lib config pending) world.pool (.process sock response)
        pool) :
      NetworkStep world (.commit sock response)
        { world with
          pool := pool
          checked := world.checked.erase (sock, pending) }
  | advance (world : NetworkWorld) (later : Int) (hlater : world.now ≤ later) :
      NetworkStep world (.advance later) { world with now := later }
  | tick (world : NetworkWorld) (db : Database)
      (hgenerate : generateTallies config world.pool.store = some db) :
      NetworkStep world .tick
        { world with
          pool := { world.pool with store := db }
          reads := world.reads ++
            (untallied world.pool.store).map fun electionId =>
              (electionId, readBallots world.pool.store electionId) }

end Step

/-- Casts that are checked carry honest encryptions, and ticks come in time. -/
def FaithfulNetwork (key : KeyPair) (world : NetworkWorld) : NetworkEvent → Prop
  | .check sock => ∀ msgBuf, .process sock msgBuf ∈ world.pool.workers →
      ∀ command ballot, Command.decode msgBuf = some command →
        EncryptedBallot.decode command.data = some ballot → HonestEntries key ballot
  | .tick => ∀ electionId ∈ untallied world.pool.store,
      (∀ election ∈ world.pool.store.elections.rows, election.id = electionId →
        election.endTime < world.now) ∧
      (∀ cast ∈ world.checked, cast.2.ballot.electionId.toInt ≠ electionId) ∧
      (electionBallots world.pool.store electionId).length < 256
  | _ => True

/-- What is left of the server without its sockets. -/
structure SameTallies (world : NetworkWorld) (tally : TallyWorld) : Prop where
  db : tally.db = world.pool.store
  now : tally.now = world.now
  reads : tally.reads = world.reads
  pending : (world.checked.map Prod.snd).Perm tally.pending

/-- The tables change only while a command is processed. -/
theorem PoolStep.store_eq {Store : Type}
    {answers : Store → Bytes → Option Bytes → Store → Prop} {world world' : PoolWorld Store}
    {event : PoolEvent} (hstep : PoolStep answers world event world') :
    world'.store = world.store ∨
      ∃ sock msgBuf response, event = .process sock response ∧
        .process sock msgBuf ∈ world.workers ∧
          answers world.store msgBuf response world'.store := by
  cases hstep with
  | newConnection sock hnotOpen => exact .inl rfl
  | pop sock queue front back hqueue hworkers => exact .inl rfl
  | transfer sock worker worker' conn front back hworkers htransfer => exact .inl rfl
  | process sock msgBuf response store front back hworkers hanswers =>
      exact .inr ⟨sock, msgBuf, some response, rfl, by simp [hworkers], hanswers⟩
  | noResponse sock msgBuf store front back hworkers hanswers =>
      exact .inr ⟨sock, msgBuf, none, rfl, by simp [hworkers], hanswers⟩
  | requeue sock front back hworkers => exact .inl rfl
  | socketError sock worker front back hworkers hsock hon => exact .inl rfl
  | tooLarge sock got front back hworkers hgot hsize => exact .inl rfl
  | command sock message => exact .inl rfl
  | client sock conn hturn => exact .inl rfl

theorem PoolStep.process_store {Store : Type}
    {answers : Store → Bytes → Option Bytes → Store → Prop} {world world' : PoolWorld Store}
    {sock : Nat} {response : Option Bytes}
    (hstep : PoolStep answers world (.process sock response) world') :
    ∃ msgBuf, answers world.store msgBuf response world'.store := by
  cases hstep with
  | process sock msgBuf response store front back hworkers hanswers =>
      exact ⟨msgBuf, hanswers⟩
  | noResponse sock msgBuf store front back hworkers hanswers => exact ⟨msgBuf, hanswers⟩

section Refine

variable {key : KeyPair} {lib : Libraries} {config : Config}

theorem SameTallies.step {world world' : NetworkWorld} {event : NetworkEvent}
    {tally : TallyWorld} (hsame : SameTallies world tally)
    (hstep : NetworkStep lib config world event world')
    (hevent : FaithfulNetwork key world event) :
    ∃ tally', Reaches (Restricted (TallyStep config) (FaithfulEvent key)) tally tally' ∧
      SameTallies world' tally' := by
  obtain ⟨hdb, hnow, hreads, hpending⟩ := hsame
  obtain ⟨db, now, pendings, reads⟩ := tally
  simp only at hdb hnow hreads hpending
  subst hdb hnow hreads
  cases hstep with
  | pool event pool hfree hstep =>
      refine ⟨_, .refl, ⟨?_, rfl, rfl, hpending⟩⟩
      rcases hstep.store_eq with hstore | ⟨_, _, _, _, _, _, hstore⟩
      · exact hstore.symm
      · exact hstore.symm
  | check sock msgBuf command pending hworker hfree hstores =>
      obtain ⟨hauth, _, haccepted, hcastAt, hdata, hsignature⟩ := hstores
      have hchecks := castBallotChecks_eq_ok.mpr
        ⟨haccepted, rfl, hcastAt, hdata, hsignature⟩
      refine ⟨_, .single ⟨.check _ _ _ _ pending hchecks, ?_⟩, ⟨rfl, rfl, rfl, ?_⟩⟩
      · intro ballot hdecode
        exact hevent msgBuf hworker command ballot (authenticate_eq_ok.mp hauth).1 hdecode
      · exact hpending.cons pending
  | commit sock pending response pool hchecked hstep =>
      have hmem : pending ∈ pendings :=
        hpending.mem_iff.mp (List.mem_map.mpr ⟨_, hchecked, rfl⟩)
      refine ⟨_, .single ⟨.commit _ pending hmem, trivial⟩, ⟨?_, rfl, rfl, ?_⟩⟩
      · obtain ⟨_, _, hstore⟩ := hstep.process_store
        exact hstore.symm
      · have hbefore := (List.perm_cons_erase hchecked).map Prod.snd
        have hafter := List.perm_cons_erase hmem
        exact List.Perm.cons_inv ((hbefore.symm.trans hpending).trans hafter)
  | advance later hlater =>
      exact ⟨_, .single ⟨.advance _ later hlater, trivial⟩, ⟨rfl, rfl, rfl, hpending⟩⟩
  | tick db hgenerate =>
      refine ⟨_, .single ⟨.tick _ db hgenerate, ?_⟩, ⟨rfl, rfl, rfl, hpending⟩⟩
      refine ⟨fun electionId hmem => ?_, fun electionId hmem => (hevent electionId hmem).2.2⟩
      refine ⟨(hevent electionId hmem).1, fun pending hpendingMem => ?_⟩
      obtain ⟨cast, hcast, rfl⟩ := List.mem_map.mp (hpending.mem_iff.mpr hpendingMem)
      exact (hevent electionId hmem).2.1 cast hcast

theorem network_simulation (key : KeyPair) (lib : Libraries) (config : Config) :
    Simulation (Restricted (NetworkStep lib config) (FaithfulNetwork key))
      (Restricted (TallyStep config) (FaithfulEvent key)) SameTallies where
  simulates := fun hsame hstep => hsame.step hstep.1 hstep.2

end Refine

/-- Bytes on sockets down to the ballot box: whatever clients send on whatever connections,
in pieces of any size and under any interleaving of the workers, the clock and time, the
server takes part in a run of the ballot box. -/
theorem network_refines_ballotBox (key : KeyPair) (lib : Libraries) {config : Config}
    (hconfig : config.HoldsKey key) {start : Database}
    (hballots : start.castEncryptedBallots.rows = [])
    (hentries : start.castEncryptedBallotEntries.rows = [])
    (htallies : start.tallies.rows = []) (htallyEntries : start.tallyEntries.rows = [])
    {numThreads : Nat} {now : Int} {world : NetworkWorld}
    (hrun : Reaches (Restricted (NetworkStep lib config) (FaithfulNetwork key))
      (.start start numThreads now) world) :
    Reaches (BallotBox.Step (MayVote start)) .empty (ballotBox config world.pool.store) ∧
      BallotBox.Sound (MayVote start) (ballotBox config world.pool.store) := by
  have hsame : SameTallies (.start start numThreads now) ⟨start, now, [], []⟩ :=
    ⟨rfl, rfl, rfl, .refl _⟩
  have hinitial : FaithfulWorld key config start ⟨start, now, [], []⟩ :=
    .of_empty hballots hentries htallies htallyEntries now
  have hsimulation :=
    (network_simulation key lib config).comp (faithful_simulation hconfig start)
  obtain ⟨box, hreaches, tally, hfinal, _, rfl⟩ :=
    hsimulation.reaches ⟨_, hsame, hinitial, rfl⟩ hrun
  rw [ballotBox_of_empty hballots htallies, hfinal.db] at hreaches
  exact ⟨hreaches, .run hreaches⟩

/-! A vote that comes in over a socket. -/

def ProcessesNothing {Store : Type} (_ : PoolWorld Store) (event : PoolEvent) : Prop :=
  ∀ sock response, event ≠ .process sock response

/-- Pool steps that process nothing are steps of the server. -/
theorem reaches_of_pool {lib : Libraries} {config : Config} (key : KeyPair)
    (world : NetworkWorld) {pool : PoolWorld Database}
    (hpool : Reaches (Restricted (PoolStep (answersOnly lib config world.now))
      ProcessesNothing) world.pool pool) :
    Reaches (Restricted (NetworkStep lib config) (FaithfulNetwork key)) world
      { world with pool := pool } := by
  induction hpool with
  | refl => exact .refl
  | tail hpool hstep ih =>
      refine ih.tail ⟨.pool _ _ _ ?_ hstep.1, trivial⟩
      intro sock response hevent
      exact absurd hevent (hstep.2 sock response)

/-- The vote arrives, is checked and is committed. -/
theorem exists_network_vote :
    ∃ world : NetworkWorld,
      Reaches (Restricted (NetworkStep SmallElection.referenceLib SmallElection.reference.config)
          (FaithfulNetwork SmallElection.reference.key))
        (.start SmallElection.reference.database 1 5) world ∧
      world.pool.store = votedDatabase := by
  have hsize := referenceVote_length.2
  have hstores := SmallElection.reference_stores_vote
  generalize encode (SmallElection.referenceVote CommandType.castBallot.value []) = message
    at hsize hstores
  have hpool : Reaches
      (Restricted (PoolStep (answersOnly SmallElection.referenceLib
        SmallElection.reference.config 5)) ProcessesNothing)
      (.start SmallElection.reference.database 1) (.alone _ [] (.process 7 message) _) :=
    reaches_process hsize (by simp [receivingEvents, ProcessesNothing])
  have hreceived := reaches_of_pool SmallElection.reference.key
    (.start SmallElection.reference.database 1 5) hpool
  have hcheck := hreceived.tail
    ⟨.check _ 7 message _ _ List.mem_cons_self (by simp [NetworkWorld.start]) hstores, ?_⟩
  have hanswers : commits SmallElection.referenceLib SmallElection.reference.config
      (SmallElection.referencePending []) SmallElection.reference.database message _
        votedDatabase :=
    ⟨castResponse_voteResponse.symm, rfl⟩
  refine ⟨_, hcheck.tail ⟨.commit _ 7 _ _ _ List.mem_cons_self
    (PoolWorld.alone_process hanswers), trivial⟩, rfl⟩
  intro msgBuf hmem command ballot hcommand hballot
  have hmessage : msgBuf = message := by simpa [PoolWorld.alone] using hmem
  obtain ⟨hauth, -⟩ := authenticate_eq_ok.mp hstores.authenticated
  rw [hmessage, hauth] at hcommand
  cases hcommand
  rw [← hstores.commandData, hstores.accepted.decoded] at hballot
  cases hballot
  exact honestEntries_referencePending

theorem network_refines_ballotBox_voted :
    ∃ world : NetworkWorld, world.pool.store = votedDatabase ∧
      Reaches (BallotBox.Step (MayVote SmallElection.reference.database)) .empty
        (ballotBox SmallElection.reference.config world.pool.store) ∧
      BallotBox.Sound (MayVote SmallElection.reference.database)
        (ballotBox SmallElection.reference.config world.pool.store) := by
  obtain ⟨world, hrun, hvoted⟩ := exists_network_vote
  exact ⟨world, hvoted, network_refines_ballotBox SmallElection.reference.key _
    SmallElection.reference.config_holdsKey rfl rfl rfl rfl hrun⟩

end VotingSystem.Server
