import VotingSystem.Crypto.Signature
import VotingSystem.Crypto.TallySum
import VotingSystem.Server.ProcessCommand

namespace VotingSystem.Server

open VotingSystem.Data VotingSystem.Crypto VotingSystem.Protos VotingSystem.Storage

/-- An election of one voter and one candidate, under any keys and in any time
window. Every row has the key one. -/
structure SmallElection where
  key : KeyPair
  serverPubKey : Bytes
  serverPrivKey : Bytes
  voterKey : Bytes
  startTime : Int
  endTime : Int

namespace SmallElection

variable (small : SmallElection)

def config : Config where
  pubKey := small.serverPubKey
  privKey := small.serverPrivKey
  paillierPubKey := pubHex small.key.modulus
  paillierPrivKeyP := privHexP small.key.modulus
  paillierPrivKeyQ := privHexQ small.key.modulus

def election : ElectionRow := ⟨1, small.startTime, small.endTime, true, false⟩

def voter : VoterRow := ⟨1, 1, small.voterKey⟩

def candidate : CandidateRow := ⟨1, 1, [], []⟩

def evg : ElectionsVoterGroupRow := ⟨1, 1, 1⟩

def database : Database :=
  { Database.empty with
    elections := SerialTable.empty.insert
      fun id => ⟨id, small.startTime, small.endTime, true, false⟩
    electionsVoterGroups := SerialTable.empty.insert fun id => ⟨id, 1, 1⟩
    voters := SerialTable.empty.insert fun id => ⟨id, 1, small.voterKey⟩
    candidates := SerialTable.empty.insert fun id => ⟨id, 1, [], []⟩ }

@[simp] theorem database_elections : small.database.elections.rows = [small.election] := rfl

@[simp] theorem database_evgs : small.database.electionsVoterGroups.rows = [evg] := rfl

@[simp] theorem database_voters : small.database.voters.rows = [small.voter] := rfl

@[simp] theorem database_candidates : small.database.candidates.rows = [candidate] := rfl

@[simp] theorem database_ballots : small.database.castEncryptedBallots.rows = [] := rfl

@[simp] theorem database_entries :
    small.database.castEncryptedBallotEntries.rows = [] := rfl

@[simp] theorem database_tallies : small.database.tallies.rows = [] := rfl

theorem voterOfKey?_voterKey : voterOfKey? small.database small.voterKey = some 1 := by
  simp [voterOfKey?, voter]

theorem candidateIds_one : candidateIds small.database 1 = [1] := by
  simp [candidateIds, candidate, orderBy]

theorem eligibilityRows_one (castAt : Int) :
    (eligibilityRows small.database 1 castAt 1).length = 1 ↔
      small.startTime ≤ castAt ∧ castAt ≤ small.endTime := by
  constructor
  · intro hlength
    obtain ⟨election, helection, _, _, _, hstart, hend, _⟩ := exists_of_eligible hlength
    rw [database_elections, List.mem_singleton] at helection
    subst helection
    exact ⟨hstart, hend⟩
  · intro hwindow
    obtain ⟨hstart, hend⟩ := hwindow
    have helection : small.election ∈ small.database.elections.rows := by simp
    have hrows := eligibilityRows_length helection hstart hend 1
    rw [database_evgs] at hrows
    exact hrows

def ballot (plaintext blind : Nat) : EncryptedBallot :=
  ⟨1, [⟨0, 1, ciphertextBytes (small.key.modulus.encrypt plaintext blind)⟩]⟩

def pending (castAt : Int) (plaintext blind : Nat) (signature : Bytes) : PendingBallot :=
  ⟨1, castAt, small.ballot plaintext blind, encode (small.ballot plaintext blind),
    signature⟩

theorem decrypted_pending (castAt : Int) (plaintext blind : Nat) (signature : Bytes) :
    ((small.pending castAt plaintext blind signature).ballot.encryptedBallotEntries.map
        fun entry => decryptEntry small.config entry.encryptedValue) =
      [decryptEntry small.config
        (ciphertextBytes (small.key.modulus.encrypt plaintext blind))] := by
  simp only [pending, ballot, List.map_cons, List.map_nil]

theorem decryptEntry_ballot {plaintext blind : Nat}
    (hblind : blind.Coprime small.key.modulus.n) :
    decryptEntry small.config
        (ciphertextBytes (small.key.modulus.encrypt plaintext blind)) = 1 ↔
      plaintext % small.key.modulus.n % 2 ^ 64 = 2 ^ 56 := by
  have hone : encodedPlaintext 1 = 2 ^ 56 := encodedPlaintext_of_lt (by decide)
  have hdecrypt := @decryptedPlaintext_encrypt _ small.key.n_lt plaintext blind hblind
  unfold decryptEntry config
  rw [paillierDec_eq_iff, hdecrypt, hone]

/-- The ballot is accepted exactly when it comes in time and the low 64 bits of
its plaintext are those of an encrypted one. -/
theorem accepted_iff {castAt : Int} {plaintext blind : Nat} {signature : Bytes}
    (hblind : blind.Coprime small.key.modulus.n) :
    Accepted small.config small.database (small.pending castAt plaintext blind signature) ↔
      (small.startTime ≤ castAt ∧ castAt ≤ small.endTime) ∧
        plaintext % small.key.modulus.n % 2 ^ 64 = 2 ^ 56 := by
  rw [← small.eligibilityRows_one, ← small.decryptEntry_ballot hblind]
  constructor
  · intro haccepted
    obtain ⟨_, ⟨voter, hvoter, _, heligible⟩, _, honeHot⟩ := haccepted
    rw [database_voters, List.mem_singleton] at hvoter
    subst hvoter
    rw [decrypted_pending] at honeHot
    have hmem := List.count_pos_iff.mp (honeHot.count_one.symm ▸ Nat.one_pos)
    rw [List.mem_singleton] at hmem
    exact ⟨heligible, hmem.symm⟩
  · intro hballot
    obtain ⟨heligible, hone⟩ := hballot
    refine ⟨EncryptedBallot.decode_encode _, ⟨small.voter, by simp, rfl, heligible⟩,
      small.candidateIds_one.symm, ?_⟩
    rw [decrypted_pending, hone]
    exact ⟨by simp, by simp⟩

theorem accepted_vote {castAt : Int} {blind : Nat} {signature : Bytes}
    (hblind : blind.Coprime small.key.modulus.n) (hstart : small.startTime ≤ castAt)
    (hend : castAt ≤ small.endTime) :
    Accepted small.config small.database
      (small.pending castAt (2 ^ 56) blind signature) := by
  have hvote : 2 ^ 56 % small.key.modulus.n % 2 ^ 64 = 2 ^ 56 := by
    rw [small.key.encodedOne_mod]
    norm_num
  exact (small.accepted_iff hblind).mpr ⟨⟨hstart, hend⟩, hvote⟩

/-! Commands of the voter. -/

def command (type : UInt32) (plaintext blind : Nat) (signature : Bytes) : Command :=
  ⟨type, encode (small.ballot plaintext blind), small.voterKey, signature⟩

variable {small}

/-- Whatever the voter signed, its signature authenticates every command. -/
theorem authenticate_encode {lib : Libraries} {command : Command} {payload : Bytes}
    (hkey : command.pubkey = small.voterKey)
    (hpayload : signedPayload? lib.wolf command.signature small.voterKey = some payload) :
    authenticate lib small.database (encode command) = .ok (command, 1) := by
  refine authenticate_eq_ok.mpr ⟨Command.decode_encode _, ?_, ?_⟩
  · rw [hkey]
    exact small.voterOfKey?_voterKey
  · rw [hkey]
    exact (rsaVerify_iff _ _ _ _).mpr ⟨payload, hpayload⟩

theorem stores_command {lib : Libraries} {type : UInt32} {signature payload : Bytes}
    (hpayload : signedPayload? lib.wolf signature small.voterKey = some payload)
    (hhandler : handlerOf type = .castBallot) {castAt : Int} {plaintext blind : Nat}
    (haccepted : Accepted small.config small.database
      (small.pending castAt plaintext blind signature)) :
    Stores lib small.config castAt small.database
      (encode (small.command type plaintext blind signature))
      (small.command type plaintext blind signature)
      (small.pending castAt plaintext blind signature) where
  authenticated := authenticate_encode rfl hpayload
  dispatched := hhandler
  accepted := haccepted
  castAt := rfl
  commandData := rfl
  commandSignature := rfl

/-! One choice of all keys but the server's, with the window from 0 to 10. -/

def referenceWith (serverKey : Bytes) : SmallElection where
  key := .reference
  serverPubKey := serverKey
  serverPrivKey := serverKey
  voterKey := (Transparent.keyPair 1).pubKey
  startTime := 0
  endTime := 10

def reference : SmallElection := referenceWith (Transparent.keyPair 0).privKey

def referenceLib : Libraries := ⟨Transparent.wolf, fun _ => false⟩

theorem reference_payload (serverKey msg : Bytes) :
    signedPayload? referenceLib.wolf (Transparent.signature 1 256 msg)
        (referenceWith serverKey).voterKey =
      some (Transparent.sha256 msg) :=
  Transparent.signedPayload?_signature 1 msg

def referenceVote (type : UInt32) (msg : Bytes) : Command :=
  reference.command type (2 ^ 56) 1 (Transparent.signature 1 256 msg)

def referencePending (msg : Bytes) : PendingBallot :=
  reference.pending 5 (2 ^ 56) 1 (Transparent.signature 1 256 msg)

theorem reference_stores {type : UInt32} (hhandler : handlerOf type = .castBallot)
    (serverKey msg : Bytes) :
    Stores referenceLib (referenceWith serverKey).config 5 reference.database
      (encode (referenceVote type msg)) (referenceVote type msg) (referencePending msg) := by
  have hstart : (referenceWith serverKey).startTime ≤ 5 := by norm_num [referenceWith]
  have hend : 5 ≤ (referenceWith serverKey).endTime := by norm_num [referenceWith]
  have haccepted := @accepted_vote (referenceWith serverKey) 5 1
    (Transparent.signature 1 256 msg) (Nat.coprime_one_left _) hstart hend
  exact stores_command (reference_payload serverKey msg) hhandler haccepted

theorem reference_stores_vote :
    Stores referenceLib reference.config 5 reference.database
      (encode (referenceVote CommandType.castBallot.value []))
      (referenceVote CommandType.castBallot.value []) (referencePending []) :=
  reference_stores (handlerOf_eq_castBallot_iff.mpr (.inr (.inr rfl)))
    (Transparent.keyPair 0).privKey []

end SmallElection

end VotingSystem.Server
