import VotingSystem.Wire.Message

namespace VotingSystem.Protos

open VotingSystem.Data VotingSystem.Wire

/-! The messages of `shared.proto` and the callbacks of `Encoding.cpp`. A bytes
field and a repeated field go through a callback, which takes the payload of any
wire type; the other fields are read in place. -/

inductive CommandType
  | getElections
  | getValidVoterGroups
  | getValidVoters
  | getPlaintextBallots
  | getEncryptedBallots
  | getPlaintextBallot
  | getEncryptedBallot
  | castBallot
  deriving DecidableEq, Repr

namespace CommandType

def value : CommandType → UInt32
  | .getElections => 0
  | .getValidVoterGroups => 1
  | .getValidVoters => 2
  | .getPlaintextBallots => 3
  | .getEncryptedBallots => 4
  | .getPlaintextBallot => 5
  | .getEncryptedBallot => 6
  | .castBallot => 7

end CommandType

inductive ResponseType
  | error
  | elections
  | voterGroups
  | voters
  | plaintextBallots
  | castEncryptedBallots
  | plaintextBallot
  | castEncryptedBallot
  deriving DecidableEq, Repr

namespace ResponseType

def value : ResponseType → UInt32
  | .error => 0
  | .elections => 1
  | .voterGroups => 2
  | .voters => 3
  | .plaintextBallots => 4
  | .castEncryptedBallots => 5
  | .plaintextBallot => 6
  | .castEncryptedBallot => 7

end ResponseType

class Message (α : Type) where
  records : α → List Record

def encode {α : Type} [Message α] (message : α) : Bytes :=
  serialize (Message.records message)

/-- `encodeMessage` fails when the encoder does; which encodings it refuses is
left open. -/
def encodeMessage {α : Type} [Message α] (encodeFails : Bytes → Bool) (message : α) :
    Option Bytes :=
  let vec := encode message
  if encodeFails vec then none else some vec

def submessage? {α : Type} (field : α → Record → Option α) (initial : α)
    (record : Record) : Option α :=
  if record.wireType = .lengthDelimited then
    decodeMessage field initial record.payload
  else
    none

/-- The type is kept as the number on the wire. -/
structure Command where
  type : UInt32
  data : Bytes
  pubkey : Bytes
  signature : Bytes
  deriving DecidableEq, Repr

namespace Command

def default : Command := ⟨0, [], [], []⟩

instance : Message Command where
  records command :=
    Record.optionalUint32 1 command.type ++
      [.bytes 2 command.data, .bytes 3 command.pubkey, .bytes 4 command.signature]

def field (command : Command) (record : Record) : Option Command :=
  match record.number with
  | 1 => record.uint32?.map fun type => { command with type := type }
  | 2 => some { command with data := record.payload }
  | 3 => some { command with pubkey := record.payload }
  | 4 => some { command with signature := record.payload }
  | _ => some command

def decode (bytes : Bytes) : Option Command := decodeMessage field default bytes

end Command

structure Response where
  type : UInt32
  data : Bytes
  pubkey : Bytes
  signature : Bytes
  deriving DecidableEq, Repr

namespace Response

def default : Response := ⟨0, [], [], []⟩

instance : Message Response where
  records response :=
    Record.optionalUint32 1 response.type ++
      [.bytes 2 response.data, .bytes 3 response.pubkey, .bytes 4 response.signature]

def field (response : Response) (record : Record) : Option Response :=
  match record.number with
  | 1 => record.uint32?.map fun type => { response with type := type }
  | 2 => some { response with data := record.payload }
  | 3 => some { response with pubkey := record.payload }
  | 4 => some { response with signature := record.payload }
  | _ => some response

def decode (bytes : Bytes) : Option Response := decodeMessage field default bytes

end Response

structure PaginationMetadata where
  lastId : Int32
  deriving DecidableEq, Repr

namespace PaginationMetadata

def default : PaginationMetadata := ⟨0⟩

instance : Message PaginationMetadata where
  records pagination := Record.optionalInt32 1 pagination.lastId

def field (pagination : PaginationMetadata) (record : Record) :
    Option PaginationMetadata :=
  match record.number with
  | 1 => record.int32?.map fun lastId => { pagination with lastId := lastId }
  | _ => some pagination

def decode (bytes : Bytes) : Option PaginationMetadata :=
  decodeMessage field default bytes

end PaginationMetadata

/-- `StringEncodeFunc` writes the terminating zero as well. -/
def stringPayload (text : Bytes) : Bytes := text ++ [0]

structure Candidate where
  id : Int32
  firstName : Bytes
  lastName : Bytes
  deriving DecidableEq, Repr

namespace Candidate

instance : Message Candidate where
  records candidate :=
    Record.optionalInt32 1 candidate.id ++
      [.bytes 2 (stringPayload candidate.firstName),
        .bytes 3 (stringPayload candidate.lastName)]

end Candidate

structure TallyEntry where
  id : Int32
  candidateId : Int32
  encryptedValue : Bytes
  encryptionR : Bytes
  decryptedValue : Int32
  deriving DecidableEq, Repr

namespace TallyEntry

instance : Message TallyEntry where
  records entry :=
    Record.optionalInt32 1 entry.id ++ (Record.optionalInt32 2 entry.candidateId ++
      ([.bytes 3 entry.encryptedValue, .bytes 4 entry.encryptionR] ++
        Record.optionalInt32 5 entry.decryptedValue))

end TallyEntry

structure Tally where
  id : Int32
  finalized : Bool
  tallyEntries : List TallyEntry
  deriving DecidableEq, Repr

namespace Tally

def default : Tally := ⟨0, false, []⟩

instance : Message Tally where
  records tally :=
    Record.optionalInt32 1 tally.id ++ (Record.optionalBool 2 tally.finalized ++
      tally.tallyEntries.map fun entry => .bytes 3 (encode entry))

end Tally

structure Election where
  id : Int32
  startTimeUtc : Int32
  endTimeUtc : Int32
  enabled : Bool
  allowWriteIn : Bool
  tally : Tally
  authorizedVoterGroupIds : List Int32
  candidates : List Candidate
  deriving DecidableEq, Repr

namespace Election

instance : Message Election where
  records election :=
    Record.optionalInt32 1 election.id ++
      (Record.optionalInt32 2 election.startTimeUtc ++
      (Record.optionalInt32 3 election.endTimeUtc ++
      (Record.optionalBool 4 election.enabled ++
      (Record.optionalBool 5 election.allowWriteIn ++
      ((if election.tally = .default then [] else [.bytes 6 (encode election.tally)]) ++
      (election.authorizedVoterGroupIds.map (Record.int32 7) ++
        election.candidates.map fun candidate => .bytes 8 (encode candidate)))))))

end Election

structure Elections where
  elections : List Election
  deriving DecidableEq, Repr

instance : Message Elections where
  records elections :=
    elections.elections.map fun election => .bytes 1 (encode election)

/-- The fields of a voter that the server sets. -/
structure Voter where
  id : Int32
  pubkey : Bytes
  voterGroupId : Int32
  deriving DecidableEq, Repr

instance : Message Voter where
  records voter :=
    Record.optionalInt32 1 voter.id ++ ([.bytes 2 voter.pubkey] ++
      Record.optionalInt32 4 voter.voterGroupId)

structure Voters where
  voters : List Voter
  deriving DecidableEq, Repr

instance : Message Voters where
  records voters := voters.voters.map fun voter => .bytes 1 (encode voter)

structure EncryptedBallotEntry where
  id : Int32
  candidateId : Int32
  encryptedValue : Bytes
  deriving DecidableEq, Repr

namespace EncryptedBallotEntry

def default : EncryptedBallotEntry := ⟨0, 0, []⟩

instance : Message EncryptedBallotEntry where
  records entry :=
    Record.optionalInt32 1 entry.id ++ (Record.optionalInt32 2 entry.candidateId ++
      [.bytes 3 entry.encryptedValue])

def field (entry : EncryptedBallotEntry) (record : Record) :
    Option EncryptedBallotEntry :=
  match record.number with
  | 1 => record.int32?.map fun id => { entry with id := id }
  | 2 => record.int32?.map fun candidateId => { entry with candidateId := candidateId }
  | 3 => some { entry with encryptedValue := record.payload }
  | _ => some entry

end EncryptedBallotEntry

structure EncryptedBallot where
  electionId : Int32
  encryptedBallotEntries : List EncryptedBallotEntry
  deriving DecidableEq, Repr

namespace EncryptedBallot

def default : EncryptedBallot := ⟨0, []⟩

instance : Message EncryptedBallot where
  records ballot :=
    Record.optionalInt32 1 ballot.electionId ++
      ballot.encryptedBallotEntries.map fun entry => .bytes 2 (encode entry)

def push (ballot : EncryptedBallot) (entry : EncryptedBallotEntry) : EncryptedBallot :=
  { ballot with encryptedBallotEntries := ballot.encryptedBallotEntries ++ [entry] }

/-- `EncryptedBallotEntriesDecodeFunc` appends one entry per occurrence. -/
def field (ballot : EncryptedBallot) (record : Record) : Option EncryptedBallot :=
  match record.number with
  | 1 => record.int32?.map fun electionId => { ballot with electionId := electionId }
  | 2 => (decodeMessage EncryptedBallotEntry.field .default record.payload).map ballot.push
  | _ => some ballot

def decode (bytes : Bytes) : Option EncryptedBallot := decodeMessage field default bytes

end EncryptedBallot

structure CastEncryptedBallot where
  id : Int32
  voterId : Int32
  castAt : Int32
  encryptedBallot : EncryptedBallot
  castCommandData : Bytes
  voterSignature : Bytes
  deriving DecidableEq, Repr

namespace CastEncryptedBallot

def default : CastEncryptedBallot := ⟨0, 0, 0, .default, [], []⟩

/-- The callback of the ballot's entries is always set, so the sub-message is
never left out. -/
instance : Message CastEncryptedBallot where
  records ceb :=
    Record.optionalInt32 1 ceb.id ++ (Record.optionalInt32 2 ceb.voterId ++
      (Record.optionalInt32 3 ceb.castAt ++
        [.bytes 4 (encode ceb.encryptedBallot), .bytes 5 ceb.castCommandData,
          .bytes 6 ceb.voterSignature]))

def field (ceb : CastEncryptedBallot) (record : Record) : Option CastEncryptedBallot :=
  match record.number with
  | 1 => record.int32?.map fun id => { ceb with id := id }
  | 2 => record.int32?.map fun voterId => { ceb with voterId := voterId }
  | 3 => record.int32?.map fun castAt => { ceb with castAt := castAt }
  | 4 => (submessage? EncryptedBallot.field ceb.encryptedBallot record).map
      fun ballot => { ceb with encryptedBallot := ballot }
  | 5 => some { ceb with castCommandData := record.payload }
  | 6 => some { ceb with voterSignature := record.payload }
  | _ => some ceb

end CastEncryptedBallot

structure CastEncryptedBallots where
  castEncryptedBallots : List CastEncryptedBallot
  deriving DecidableEq, Repr

namespace CastEncryptedBallots

def default : CastEncryptedBallots := ⟨[]⟩

instance : Message CastEncryptedBallots where
  records cebs := cebs.castEncryptedBallots.map fun ceb => .bytes 1 (encode ceb)

def push (cebs : CastEncryptedBallots) (ceb : CastEncryptedBallot) :
    CastEncryptedBallots :=
  ⟨cebs.castEncryptedBallots ++ [ceb]⟩

/-- `CastEncryptedBallotsDecodeFunc`. -/
def field (cebs : CastEncryptedBallots) (record : Record) : Option CastEncryptedBallots :=
  match record.number with
  | 1 => (decodeMessage CastEncryptedBallot.field .default record.payload).map cebs.push
  | _ => some cebs

def decode (bytes : Bytes) : Option CastEncryptedBallots :=
  decodeMessage field default bytes

end CastEncryptedBallots

structure CastEncryptedBallotsRequest where
  paginationMetadata : PaginationMetadata
  electionId : Int32
  deriving DecidableEq, Repr

namespace CastEncryptedBallotsRequest

def default : CastEncryptedBallotsRequest := ⟨.default, 0⟩

instance : Message CastEncryptedBallotsRequest where
  records request :=
    (if request.paginationMetadata = .default then []
      else [.bytes 1 (encode request.paginationMetadata)]) ++
    Record.optionalInt32 2 request.electionId

def field (request : CastEncryptedBallotsRequest) (record : Record) :
    Option CastEncryptedBallotsRequest :=
  match record.number with
  | 1 => (submessage? PaginationMetadata.field request.paginationMetadata record).map
      fun pagination => { request with paginationMetadata := pagination }
  | 2 => record.int32?.map fun electionId => { request with electionId := electionId }
  | _ => some request

def decode (bytes : Bytes) : Option CastEncryptedBallotsRequest :=
  decodeMessage field default bytes

end CastEncryptedBallotsRequest

end VotingSystem.Protos
