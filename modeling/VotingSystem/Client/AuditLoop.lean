import VotingSystem.Client.Audit
import VotingSystem.Server.PublicRecord

namespace VotingSystem.Client

open VotingSystem.Data VotingSystem.Crypto VotingSystem.Number VotingSystem.Protos
open VotingSystem.Storage VotingSystem.Server

/-! `verifyTallyEncryption` one message at a time, whoever sends the messages. -/

structure AuditLoop where
  electionId : Int32
  candidateId : Int32
  encrypted : Bytes
  lastId : Int32
  ballotCiphertexts : List Bytes

/-- What a message leads to: another round or the end of the call. -/
inductive AuditProgress
  | again (loop : AuditLoop)
  | returned (result : Bool)

section Round

variable (lib : Libraries) (config : Config)

def receivePage (msgBuf : Bytes) : Option (List CastEncryptedBallot) := do
  let (type, data) ← getResponse lib config msgBuf
  if type ≠ ResponseType.castEncryptedBallots.value then
    none
  else
    let cebs ← CastEncryptedBallots.decode data
    some cebs.castEncryptedBallots

namespace AuditLoop

def start (electionId candidateId : Int32) (encrypted : Bytes) : AuditLoop :=
  ⟨electionId, candidateId, encrypted, 0, []⟩

/-- The command that asks for the next page. -/
def request (loop : AuditLoop) : Option Bytes := do
  let reqEnc ← encodeMessage lib.encodeFails
    (⟨⟨loop.lastId⟩, loop.electionId⟩ : CastEncryptedBallotsRequest)
  sendCommand lib config .getEncryptedBallots reqEnc

def compare (loop : AuditLoop) : Bool :=
  let trueEncrypted := paillierSum loop.ballotCiphertexts config.serverPaillierPubKey
  loop.encrypted.length = pCiphertextMaxLen &&
    trueEncrypted.take pCiphertextMaxLen = loop.encrypted

def collect (loop : AuditLoop) (cebs : List CastEncryptedBallot) : AuditLoop :=
  { loop with
    ballotCiphertexts :=
      loop.ballotCiphertexts ++ candidateCiphertexts loop.candidateId cebs }

def receive (loop : AuditLoop) (msgBuf : Bytes) : AuditProgress :=
  match receivePage lib config msgBuf with
  | none => .returned false
  | some cebs =>
      match cebs.getLast? with
      | none => .returned ((loop.collect cebs).compare config)
      | some ceb => .again { loop.collect cebs with lastId := ceb.id }

/-- The call over a network that answers each command with a message. -/
def run (server : Bytes → Option Bytes) : (fuel : Nat) → AuditLoop → Bool
  | 0, _ => false
  | fuel + 1, loop =>
      match (loop.request lib config).bind server with
      | none => false
      | some msgBuf =>
          match loop.receive lib config msgBuf with
          | .returned result => result
          | .again next => run server fuel next

end AuditLoop

end Round

section Run

variable {lib : Libraries} {config : Config} {server : Bytes → Option Bytes}

theorem fetchBallots_eq_receivePage (loop : AuditLoop) :
    fetchBallots lib config server loop.electionId loop.lastId =
      ((loop.request lib config).bind server).bind (receivePage lib config) := by
  simp only [fetchBallots, AuditLoop.request, Option.bind_eq_bind, Option.bind_assoc]
  rfl

theorem AuditLoop.run_eq (fuel : Nat) (loop : AuditLoop) :
    loop.run lib config server fuel =
      match collectCiphertexts (fetchBallots lib config server loop.electionId)
          loop.candidateId fuel loop.lastId with
      | none => false
      | some rest =>
          compare config
            { loop with ballotCiphertexts := loop.ballotCiphertexts ++ rest } := by
  induction fuel generalizing loop with
  | zero => rfl
  | succ fuel ih =>
      simp only [run, collectCiphertexts, fetchBallots_eq_receivePage]
      cases (loop.request lib config).bind server with
      | none => rfl
      | some msgBuf =>
          simp only [receive, Option.bind_eq_bind, Option.bind_some]
          cases receivePage lib config msgBuf with
          | none => rfl
          | some cebs =>
              cases hlast : cebs.getLast? with
              | none => simp [hlast, collect]
              | some ceb =>
                  simp only [hlast, Option.bind_some, ih, collect]
                  cases collectCiphertexts _ loop.candidateId fuel ceb.id with
                  | none => rfl
                  | some rest =>
                      simp only [Option.bind_some, List.append_assoc]
                      rfl

/-- The loop of the client is the loop of its rounds. -/
theorem verifyTallyEncryption_eq_run (electionId candidateId : Int32) (encrypted : Bytes)
    (fuel : Nat) :
    verifyTallyEncryption lib config server electionId candidateId encrypted fuel =
      (AuditLoop.start electionId candidateId encrypted).run lib config server fuel := by
  rw [AuditLoop.run_eq, verifyTallyEncryption]
  simp only [AuditLoop.start, List.nil_append]
  cases collectCiphertexts (fetchBallots lib config server electionId) candidateId fuel 0 with
  | none => rfl
  | some rest => rfl

end Run

/-! What a call has collected, against the ballots stored when it was made. -/

/-- `stored` keeps the tables as they were when the call was made. -/
structure AuditCall extends AuditLoop where
  stored : Database

structure Verdict where
  electionId : Int32
  candidateId : Int32
  encrypted : Bytes
  stored : Database
  result : Bool

def AuditCall.verdict (call : AuditCall) (result : Bool) : Verdict :=
  ⟨call.electionId, call.candidateId, call.encrypted, call.stored, result⟩

/-- The audited ciphertext is the product of the ciphertexts that were stored for
the candidate when the call was made. -/
def Verdict.Right (modulus : Modulus) (verdict : Verdict) : Prop :=
  verdict.encrypted =
    ciphertextBytes
      (((storedCiphertexts verdict.stored verdict.electionId.toInt
          verdict.candidateId.toInt).map mpzImport).prod % modulus.n ^ 2)

def storedPage (db : Database) (electionId lastId : Int32) :
    Option (List CastEncryptedBallot) :=
  some (encryptedBallotsMessage db ⟨⟨lastId⟩, electionId⟩).castEncryptedBallots

/-- Going on with the stored pages collects what the call is about. -/
def Complete (call : AuditCall) : Prop :=
  ∃ fuel rest,
    collectCiphertexts (storedPage call.stored call.electionId) call.candidateId fuel
        call.lastId = some rest ∧
      (call.ballotCiphertexts ++ rest).Perm
        (storedCiphertexts call.stored call.electionId.toInt call.candidateId.toInt)

section Collect

variable {lib : Libraries} {client : Config} {modulus : Modulus}

theorem Complete.start {db : Database} (hpositive : PositiveIds db)
    (hcolumns : db.IntColumns) (electionId candidateId : Int32) (encrypted : Bytes) :
    Complete ⟨.start electionId candidateId encrypted, db⟩ := by
  obtain ⟨ciphertexts, hcollect, hperm⟩ := collectCiphertexts_stored hcolumns
    hpositive.ballots electionId candidateId
    (fun lastId => (rfl : storedPage db electionId lastId = _)) (Nat.lt_succ_self _)
  exact ⟨_, ciphertexts, hcollect, hperm⟩

theorem AuditLoop.compare_iff (hsize : modulus.n < 2 ^ 2048)
    (hpub : client.serverPaillierPubKey = pubHex modulus) (loop : AuditLoop) :
    loop.compare client = true ↔
      loop.encrypted =
        ciphertextBytes
          ((loop.ballotCiphertexts.map mpzImport).prod % modulus.n ^ 2) := by
  have htake : (ciphertextBytes ((loop.ballotCiphertexts.map mpzImport).prod %
      modulus.n ^ 2)).take pCiphertextMaxLen =
        ciphertextBytes ((loop.ballotCiphertexts.map mpzImport).prod % modulus.n ^ 2) :=
    List.take_of_length_le (ciphertextBytes_length _).le
  simp only [compare, hpub, paillierSum_eq_prod hsize, htake, Bool.and_eq_true,
    decide_eq_true_eq]
  constructor
  · intro haccepted
    exact haccepted.2.symm
  · intro hencrypted
    rw [hencrypted]
    exact ⟨ciphertextBytes_length _, rfl⟩

theorem AuditLoop.receive_eq_again {loop next : AuditLoop} {msgBuf : Bytes}
    (hreceive : loop.receive lib client msgBuf = .again next) :
    ∃ cebs ceb, receivePage lib client msgBuf = some cebs ∧ cebs.getLast? = some ceb ∧
      next = { loop.collect cebs with lastId := ceb.id } := by
  unfold receive at hreceive
  split at hreceive
  · cases hreceive
  · rename_i cebs hpage
    split at hreceive
    · cases hreceive
    · rename_i ceb hlast
      cases hreceive
      exact ⟨cebs, ceb, hpage, hlast, rfl⟩

theorem AuditLoop.receive_eq_true {loop : AuditLoop} {msgBuf : Bytes}
    (hreceive : loop.receive lib client msgBuf = .returned true) :
    receivePage lib client msgBuf = some [] ∧ (loop.collect []).compare client = true := by
  unfold receive at hreceive
  split at hreceive
  · cases hreceive
  · rename_i cebs hpage
    split at hreceive
    · rename_i hlast
      obtain rfl := List.getLast?_eq_none_iff.mp hlast
      exact ⟨hpage, AuditProgress.returned.inj hreceive⟩
    · cases hreceive

variable {call : AuditCall} {msgBuf : Bytes}

/-- Taking the next stored page stays on the way, and the empty one is the end. -/
theorem Complete.page (hcomplete : Complete call) {cebs : List CastEncryptedBallot}
    (hpage : storedPage call.stored call.electionId call.lastId = some cebs) :
    (∀ ceb, cebs.getLast? = some ceb →
      Complete ⟨{ call.collect cebs with lastId := ceb.id }, call.stored⟩) ∧
      (cebs = [] →
        call.ballotCiphertexts.Perm
          (storedCiphertexts call.stored call.electionId.toInt call.candidateId.toInt)) := by
  obtain ⟨fuel, rest, hcollect, hperm⟩ := hcomplete
  cases fuel with
  | zero => contradiction
  | succ fuel =>
      simp only [collectCiphertexts, hpage, Option.bind_eq_bind, Option.bind_some]
        at hcollect
      constructor
      · intro ceb hlast
        rw [hlast] at hcollect
        obtain ⟨later, hlater, hrest⟩ := Option.bind_eq_some_iff.mp hcollect
        rw [← Option.some.inj hrest, ← List.append_assoc] at hperm
        exact ⟨fuel, later, hlater, hperm⟩
      · rintro rfl
        rw [← Option.some.inj hcollect] at hperm
        simpa [candidateCiphertexts] using hperm

variable (hfresh : ∀ cebs, receivePage lib client msgBuf = some cebs →
  storedPage call.stored call.electionId call.lastId = some cebs)

include hfresh

theorem Complete.again (hcomplete : Complete call) {next : AuditLoop}
    (hreceive : call.receive lib client msgBuf = .again next) :
    Complete ⟨next, call.stored⟩ := by
  obtain ⟨cebs, ceb, hpage, hlast, rfl⟩ := AuditLoop.receive_eq_again hreceive
  exact (hcomplete.page (hfresh cebs hpage)).1 ceb hlast

theorem Complete.right (hsize : modulus.n < 2 ^ 2048)
    (hpub : client.serverPaillierPubKey = pubHex modulus) (hcomplete : Complete call)
    (hreceive : call.receive lib client msgBuf = .returned true) :
    (call.verdict true).Right modulus := by
  obtain ⟨hpage, hcompare⟩ := AuditLoop.receive_eq_true hreceive
  have hperm := (hcomplete.page (hfresh [] hpage)).2 rfl
  have hencrypted := (AuditLoop.compare_iff hsize hpub _).mp hcompare
  have hcollected : (call.collect []).ballotCiphertexts = call.ballotCiphertexts :=
    List.append_nil _
  rw [hcollected, (hperm.map mpzImport).prod_eq] at hencrypted
  exact hencrypted

end Collect

end VotingSystem.Client
