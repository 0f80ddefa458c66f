import VotingSystem.Data.Transition
import VotingSystem.Server.SmallElection

namespace VotingSystem.Server

open VotingSystem.Data VotingSystem.Crypto VotingSystem.Protos VotingSystem.Storage

/-! Who signed the stored ballots. An adversary owns some of the keys, sees every
message and sends what it likes; a signature under another key comes from its
holder. -/

/-- The database, and every message a key holder has passed to `rsaSign`. -/
structure World where
  db : Database
  signed : List (Bytes × Bytes)

inductive Action
  | sign (pubKey msg : Bytes)
  | command (currTime : Int) (bytes : Bytes)

section Step

variable (lib : Libraries) (config : Config) (owned occurs : Bytes → Prop)

/-- A signature that verifies under a key the adversary does not own carries the
digest of a message its holder signed. -/
def Unforged (world : World) (bytes : Bytes) : Prop :=
  ∀ command, Command.decode bytes = some command → ¬owned command.pubkey →
    ∀ payload, signedPayload? lib.wolf command.signature command.pubkey = some payload →
      ∃ msg, (command.pubkey, msg) ∈ world.signed ∧ payload = lib.wolf.sha256 msg

/-- `occurs` holds of the messages of the run: those that are signed and those a
command is checked against. -/
inductive WorldStep : World → Action → World → Prop
  | sign (world : World) (pubKey msg : Bytes) (hoccurs : occurs msg) :
      WorldStep world (.sign pubKey msg)
        { world with signed := (pubKey, msg) :: world.signed }
  | command (world : World) (currTime : Int) (bytes : Bytes)
      (hunforged : Unforged lib owned world bytes)
      (hoccurs : ∀ command, Command.decode bytes = some command →
        occurs (typeAndData command.type command.data)) :
      WorldStep world (.command currTime bytes)
        { world with db := (processCommand lib config currTime world.db bytes).2 }

/-- No ballot of another party's voter is stored unless its command is a
`CAST_BALLOT` and its signature carries the digest of that command. -/
def BindsMessage (world : World) : Action → Prop
  | .sign _ _ => True
  | .command currTime bytes =>
      ∀ command pending, Stores lib config currTime world.db bytes command pending →
        ¬owned command.pubkey →
          command.type = CommandType.castBallot.value ∧
            signedPayload? lib.wolf command.signature command.pubkey =
              some (lib.wolf.sha256 (typeAndData command.type command.data))

def Authentic (world : World) : Prop :=
  ∀ ballot ∈ world.db.castEncryptedBallots.rows, ∀ voter ∈ world.db.voters.rows,
    voter.id = ballot.voterId → ¬owned voter.smartcardPublicKey →
      (voter.smartcardPublicKey,
        typeAndData CommandType.castBallot.value ballot.castCommandData) ∈ world.signed

end Step

section Run

variable {lib : Libraries} {config : Config} {owned occurs : Bytes → Prop}

structure AuthenticWorld (owned occurs : Bytes → Prop) (world : World) : Prop where
  authentic : Authentic owned world
  occurring : ∀ entry ∈ world.signed, occurs entry.2

theorem AuthenticWorld.sign {world : World} (hworld : AuthenticWorld owned occurs world)
    (pubKey : Bytes) {msg : Bytes} (hoccurs : occurs msg) :
    AuthenticWorld owned occurs
      { world with signed := (pubKey, msg) :: world.signed } where
  authentic := fun ballot hballot voter hvoter hid howned =>
    List.mem_cons_of_mem _ (hworld.authentic ballot hballot voter hvoter hid howned)
  occurring := by
    intro entry hentry
    rcases List.mem_cons.mp hentry with rfl | hold
    · exact hoccurs
    · exact hworld.occurring entry hold

/-- A stored ballot of a foreign key was signed, since the digest in its
signature is that of its own command. -/
theorem Stores.signed {world : World} {currTime : Int} {bytes : Bytes} {command : Command}
    {pending : PendingBallot}
    (hinjective : ∀ msg msg', occurs msg → occurs msg' →
      lib.wolf.sha256 msg = lib.wolf.sha256 msg' → msg = msg')
    (hsigned : ∀ entry ∈ world.signed, occurs entry.2)
    (hunforged : Unforged lib owned world bytes)
    (hoccurs : ∀ command, Command.decode bytes = some command →
      occurs (typeAndData command.type command.data))
    (hbinds : BindsMessage lib config owned world (.command currTime bytes))
    (hstores : Stores lib config currTime world.db bytes command pending)
    (howned : ¬owned command.pubkey) :
    (command.pubkey, typeAndData CommandType.castBallot.value pending.commandData) ∈
      world.signed := by
  obtain ⟨hdecode, _, _⟩ := authenticate_eq_ok.mp hstores.authenticated
  obtain ⟨htype, hpayload⟩ := hbinds command pending hstores howned
  obtain ⟨msg, hmsg, hdigest⟩ := hunforged command hdecode howned _ hpayload
  have hsame := hinjective _ _ (hoccurs command hdecode) (hsigned _ hmsg) hdigest
  rw [hstores.commandData, ← htype, hsame]
  exact hmsg

theorem AuthenticWorld.command {world : World}
    (hinjective : ∀ msg msg', occurs msg → occurs msg' →
      lib.wolf.sha256 msg = lib.wolf.sha256 msg' → msg = msg')
    (hworld : AuthenticWorld owned occurs world) {currTime : Int} {bytes : Bytes}
    (hunforged : Unforged lib owned world bytes)
    (hoccurs : ∀ command, Command.decode bytes = some command →
      occurs (typeAndData command.type command.data))
    (hbinds : BindsMessage lib config owned world (.command currTime bytes)) :
    AuthenticWorld owned occurs
      { world with db := (processCommand lib config currTime world.db bytes).2 } := by
  rcases processCommand_cases lib config currTime world.db bytes with
    hsame | ⟨command, pending, hstores, hresult⟩
  · rw [hsame]
    exact hworld
  · refine ⟨?_, hworld.occurring⟩
    rw [hresult]
    intro ballot hballot voter hvoter hid howned
    simp only [insertBallot_ballots, List.mem_append, List.mem_singleton] at hballot
    rcases hballot with hold | rfl
    · exact hworld.authentic ballot hold voter hvoter hid howned
    · -- the voter of the new ballot is the one the public key was looked up for
      obtain ⟨_, hlookup, _⟩ := authenticate_eq_ok.mp hstores.authenticated
      obtain ⟨found, hfound, hfoundId, hkey⟩ := voterOfKey?_eq_some hlookup
      obtain rfl : found = voter :=
        world.db.voters.eq_of_key_eq hfound hvoter (hfoundId.trans hid.symm)
      rw [hkey] at howned ⊢
      have hsigned := hstores.signed hinjective hworld.occurring hunforged hoccurs hbinds
        howned
      exact hsigned

/-- When every stored ballot's signature binds its command, every reachable
world is authentic. -/
theorem authentic_of_bindsMessage
    (hinjective : ∀ msg msg', occurs msg → occurs msg' →
      lib.wolf.sha256 msg = lib.wolf.sha256 msg' → msg = msg')
    {start : Database} (hempty : start.castEncryptedBallots.rows = []) {world : World}
    (hrun : Reaches
      (Restricted (WorldStep lib config owned occurs) (BindsMessage lib config owned))
      ⟨start, []⟩ world) :
    Authentic owned world := by
  have hinitial : AuthenticWorld owned occurs ⟨start, []⟩ :=
    ⟨fun ballot hballot => by simp [hempty] at hballot, by simp⟩
  have hfinal : AuthenticWorld owned occurs world := by
    apply hrun.invariant hinitial
    intro source action target hsource hrestricted
    obtain ⟨hstep, hbinds⟩ := hrestricted
    cases hstep with
    | sign pubKey msg hoccurs => exact hsource.sign pubKey hoccurs
    | command currTime bytes hunforged hoccurs =>
        exact hsource.command hinjective hunforged hoccurs hbinds
  exact hfinal.authentic

end Run

/-! The voter of the small election signs one message, and its signature comes
with a ballot. -/

namespace SmallElection

def signedWorld (msg : Bytes) : World :=
  ⟨reference.database, [(reference.voterKey, msg)]⟩

def votedWorld (msg : Bytes) : World :=
  ⟨insertBallot reference.database (referencePending msg), [(reference.voterKey, msg)]⟩

def voteMessage (type : UInt32) : Bytes :=
  typeAndData type (encode (reference.ballot (2 ^ 56) 1))

section Vote

variable {occurs : Bytes → Prop} {type : UInt32} {msg : Bytes}

theorem sign_step (hoccurs : occurs msg) :
    WorldStep referenceLib reference.config (fun _ => False) occurs
      ⟨reference.database, []⟩ (.sign reference.voterKey msg) (signedWorld msg) :=
  .sign ⟨reference.database, []⟩ reference.voterKey msg hoccurs

theorem vote_step (hhandler : handlerOf type = .castBallot)
    (hoccurs : occurs (voteMessage type)) :
    WorldStep referenceLib reference.config (fun _ => False) occurs (signedWorld msg)
      (.command 5 (encode (referenceVote type msg))) (votedWorld msg) := by
  have hdecode : ∀ command,
      Command.decode (encode (referenceVote type msg)) = some command →
        command = referenceVote type msg := by
    intro command hcommand
    rw [Command.decode_encode, Option.some.injEq] at hcommand
    exact hcommand.symm
  have hunforged : Unforged referenceLib (fun _ => False) (signedWorld msg)
      (encode (referenceVote type msg)) := by
    intro command hcommand _ payload hpayload
    rw [hdecode command hcommand] at hpayload ⊢
    have hsigned := reference_payload (Transparent.keyPair 0).privKey msg
    refine ⟨msg, List.mem_singleton.mpr rfl, ?_⟩
    exact Option.some.inj (hpayload.symm.trans hsigned)
  have hmessages : ∀ command,
      Command.decode (encode (referenceVote type msg)) = some command →
        occurs (typeAndData command.type command.data) := by
    intro command hcommand
    rw [hdecode command hcommand]
    exact hoccurs
  have hstores : Stores referenceLib reference.config 5 reference.database
      (encode (referenceVote type msg)) (referenceVote type msg) (referencePending msg) :=
    reference_stores hhandler (Transparent.keyPair 0).privKey msg
  have hstep := @WorldStep.command referenceLib reference.config (fun _ => False) occurs
    (signedWorld msg) 5 _ hunforged hmessages
  rw [signedWorld, hstores.processCommand_eq] at hstep
  exact hstep

end Vote

theorem vote_bindsMessage :
    BindsMessage referenceLib reference.config (fun _ => False)
      (signedWorld (voteMessage CommandType.castBallot.value))
      (.command 5
        (encode (referenceVote CommandType.castBallot.value
          (voteMessage CommandType.castBallot.value)))) := by
  intro command pending hstores _
  obtain ⟨hdecode, _, _⟩ := authenticate_eq_ok.mp hstores.authenticated
  rw [Command.decode_encode, Option.some.injEq] at hdecode
  subst hdecode
  have hmessage : typeAndData
      (referenceVote CommandType.castBallot.value
        (voteMessage CommandType.castBallot.value)).type
      (referenceVote CommandType.castBallot.value
        (voteMessage CommandType.castBallot.value)).data =
      voteMessage CommandType.castBallot.value := rfl
  rw [hmessage]
  exact ⟨rfl, reference_payload (Transparent.keyPair 0).privKey _⟩

end SmallElection

theorem authentic_of_bindsMessage_vote :
    Authentic (fun _ => False)
      (SmallElection.votedWorld
        (SmallElection.voteMessage CommandType.castBallot.value)) :=
  @authentic_of_bindsMessage SmallElection.referenceLib SmallElection.reference.config
    (fun _ => False)
    (fun msg => msg = SmallElection.voteMessage CommandType.castBallot.value)
    (fun _ _ hmsg hmsg' _ => hmsg.trans hmsg'.symm)
    SmallElection.reference.database SmallElection.reference.database_ballots _
    (.tail (.single ⟨SmallElection.sign_step rfl, trivial⟩)
      ⟨SmallElection.vote_step (handlerOf_eq_castBallot_iff.mpr (.inr (.inr rfl))) rfl,
        SmallElection.vote_bindsMessage⟩)

def requestMessage : Bytes := typeAndData CommandType.getElections.value []

def RequestOrVote (msg : Bytes) : Prop :=
  msg = requestMessage ∨ msg = SmallElection.voteMessage CommandType.castBallot.value

theorem requestOrVote_injective (msg msg' : Bytes) (hmsg : RequestOrVote msg)
    (hmsg' : RequestOrVote msg')
    (hdigest : Transparent.sha256 msg = Transparent.sha256 msg') : msg = msg' := by
  have hrequest : (Transparent.sha256 requestMessage).head? = some 0 :=
    Transparent.sha256_head 0 _
  have hvote : (Transparent.sha256
      (SmallElection.voteMessage CommandType.castBallot.value)).head? = some 7 :=
    Transparent.sha256_head 7 _
  have hhead := congrArg List.head? hdigest
  rcases hmsg with rfl | rfl <;> rcases hmsg' with rfl | rfl
  · rfl
  · rw [hrequest, hvote] at hhead
    exact absurd hhead (by decide)
  · rw [hrequest, hvote] at hhead
    exact absurd hhead (by decide)
  · rfl

/-- The signature of a request for the elections stores a ballot its voter never
signed. -/
theorem reused_signature_not_authentic :
    (∀ msg msg', RequestOrVote msg → RequestOrVote msg' →
      SmallElection.referenceLib.wolf.sha256 msg =
        SmallElection.referenceLib.wolf.sha256 msg' → msg = msg') ∧
    Reaches
      (WorldStep SmallElection.referenceLib SmallElection.reference.config (fun _ => False)
        RequestOrVote)
      ⟨SmallElection.reference.database, []⟩ (SmallElection.votedWorld requestMessage) ∧
    ¬Authentic (fun _ => False) (SmallElection.votedWorld requestMessage) := by
  refine ⟨requestOrVote_injective, ?_, fun hauthentic => ?_⟩
  · have hhandler : handlerOf CommandType.castBallot.value = .castBallot :=
      handlerOf_eq_castBallot_iff.mpr (.inr (.inr rfl))
    exact .tail (.single (SmallElection.sign_step (.inl rfl)))
      (SmallElection.vote_step hhandler (.inr rfl))
  · have hballot : castEncryptedBallotRow (SmallElection.referencePending requestMessage) 1 ∈
        (SmallElection.votedWorld requestMessage).db.castEncryptedBallots.rows := by
      simp only [SmallElection.votedWorld, insertBallot_ballots]
      exact List.mem_append_right _ (List.mem_singleton.mpr rfl)
    have hvoter : SmallElection.reference.voter ∈
        (SmallElection.votedWorld requestMessage).db.voters.rows :=
      List.mem_singleton.mpr rfl
    have hsigned := hauthentic _ hballot _ hvoter rfl not_false
    have hsame := congrArg Prod.snd (List.mem_singleton.mp hsigned)
    exact absurd (typeAndData_inj hsame).1 (by decide)

end VotingSystem.Server
