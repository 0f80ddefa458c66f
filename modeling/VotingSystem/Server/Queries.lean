import VotingSystem.Data.Paging
import VotingSystem.Server.Response
import VotingSystem.Storage.Schema

namespace VotingSystem.Server

open VotingSystem.Data VotingSystem.Protos VotingSystem.Storage

/-! The read-only handlers. Each one builds a message from a page of rows. -/

def paginationMax : Nat := 100

section Elections

variable (db : Database)

def tallyRows (electionId : Int) : List TallyEntryRow :=
  orderBy TallyEntryRow.candidateId
    (((leftJoin (fun entry tally => decide (tally.id = entry.tallyId))
        db.tallyEntries.rows db.tallies.rows).filter fun row =>
      row.2.any fun (tally : TallyRow) => tally.electionId = electionId).map Prod.fst)

def tallyEntry (row : TallyEntryRow) : TallyEntry where
  id := Int32.ofInt row.id
  candidateId := Int32.ofInt row.candidateId
  encryptedValue := row.encryptedValue
  encryptionR := row.encryptionR
  decryptedValue := Int32.ofInt row.decryptedValue

/-- `none` when the entries belong to different tallies. -/
def electionTally (electionId : Int) : Option Tally :=
  match tallyRows db electionId with
  | [] => some .default
  | first :: rest =>
      if (first :: rest).all fun row => row.tallyId = first.tallyId then
        some ⟨Int32.ofInt first.tallyId, true, (first :: rest).map tallyEntry⟩
      else
        none

/-- The query selects the key of the authorisation, on that key. -/
def authVoterGroups (electionId : Int) : List Int32 :=
  (orderBy ElectionsVoterGroupRow.id
    (db.electionsVoterGroups.rows.filter fun evg => evg.id = electionId)).map
      fun evg => Int32.ofInt evg.id

def electionCandidates (electionId : Int) : List Candidate :=
  (orderBy CandidateRow.id
    (db.candidates.rows.filter fun candidate => candidate.electionId = electionId)).map
      fun candidate => ⟨Int32.ofInt candidate.id, candidate.firstName, candidate.lastName⟩

def electionMessage (row : ElectionRow) : Option Election := do
  let tally ← electionTally db row.id
  some
    { id := Int32.ofInt row.id
      startTimeUtc := Int32.ofInt row.startTime
      endTimeUtc := Int32.ofInt row.endTime
      enabled := row.enabled
      allowWriteIn := row.allowWriteIn
      tally := tally
      authorizedVoterGroupIds := authVoterGroups db row.id
      candidates := electionCandidates db row.id }

def electionsMessage (pagination : PaginationMetadata) : Option Elections := do
  let elections ←
    (page ElectionRow.id paginationMax db.elections.rows pagination.lastId.toInt).mapM
      (electionMessage db)
  some ⟨elections⟩

end Elections

section Voters

variable (db : Database)

def voterMessage (row : VoterRow) : Voter where
  id := Int32.ofInt row.id
  pubkey := row.smartcardPublicKey
  voterGroupId := Int32.ofInt row.voterGroupId

def votersMessage (pagination : PaginationMetadata) : Voters :=
  ⟨(page VoterRow.id paginationMax db.voters.rows pagination.lastId.toInt).map voterMessage⟩

end Voters

section EncryptedBallots

variable (db : Database)

def ballotEntryRows (ballotId : Int) : List CastEncryptedBallotEntryRow :=
  orderBy CastEncryptedBallotEntryRow.candidateId
    (db.castEncryptedBallotEntries.rows.filter fun entry =>
      entry.castEncryptedBallotId = ballotId)

def ballotEntry (row : CastEncryptedBallotEntryRow) : EncryptedBallotEntry where
  id := Int32.ofInt row.id
  candidateId := Int32.ofInt row.candidateId
  encryptedValue := row.encryptedValue

def castEncryptedBallotMessage (electionId : Int32) (row : CastEncryptedBallotRow) :
    CastEncryptedBallot where
  id := Int32.ofInt row.id
  voterId := Int32.ofInt row.voterId
  castAt := Int32.ofInt row.castAt
  encryptedBallot := ⟨electionId, (ballotEntryRows db row.id).map ballotEntry⟩
  castCommandData := row.castCommandData
  voterSignature := row.voterSignature

def electionBallots (electionId : Int) : List CastEncryptedBallotRow :=
  db.castEncryptedBallots.rows.filter fun ballot => ballot.electionId = electionId

def encryptedBallotsMessage (request : CastEncryptedBallotsRequest) :
    CastEncryptedBallots :=
  ⟨(page CastEncryptedBallotRow.id paginationMax
      (electionBallots db request.electionId.toInt)
      request.paginationMetadata.lastId.toInt).map
    (castEncryptedBallotMessage db request.electionId)⟩

end EncryptedBallots

section Handlers

variable (lib : Libraries) (config : Config) (db : Database)

def getElections (pagination : PaginationMetadata) : Option Bytes := do
  let elections ← electionsMessage db pagination
  let electionsEncoded ← encodeMessage lib.encodeFails elections
  finishResponse lib config .elections electionsEncoded

def getVoters (pagination : PaginationMetadata) : Option Bytes := do
  let votersEncoded ← encodeMessage lib.encodeFails (votersMessage db pagination)
  finishResponse lib config .voters votersEncoded

def getEncryptedBallots (request : CastEncryptedBallotsRequest) : Option Bytes := do
  let cebesEncoded ← encodeMessage lib.encodeFails (encryptedBallotsMessage db request)
  finishResponse lib config .castEncryptedBallots cebesEncoded

end Handlers

end VotingSystem.Server
