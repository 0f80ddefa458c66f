import VotingSystem.Client.Client
import VotingSystem.Server.SmallElection
import VotingSystem.Wire.Parse

namespace VotingSystem.Client

open VotingSystem.Data VotingSystem.Wire VotingSystem.Crypto VotingSystem.Protos
open VotingSystem.Storage (Database)
open VotingSystem.Server (Libraries processCommand authenticate SmallElection)

/-! Fields that neither side knows, which no signature covers. -/

theorem Command.field_of_lt {record : Record} (hnumber : 4 < record.number)
    (command : Command) : Command.field command record = some command := by
  unfold Command.field
  split
  · omega
  · omega
  · omega
  · omega
  · rfl

theorem Response.field_of_lt {record : Record} (hnumber : 4 < record.number)
    (response : Response) : Response.field response record = some response := by
  unfold Response.field
  split
  · omega
  · omega
  · omega
  · omega
  · rfl

/-- Anybody can put fields with new numbers between the fields of a signed message, or after
them: the server does the same with the command, and the client takes the same from the
response. -/
theorem unknown_fields_ignored (lib : Libraries) (server : Server.Config) (client : Config)
    (currTime : Int) (db : Database) {front : Bytes} {records extra : List Record}
    (hfront : parse front = some records) (hvalid : ∀ record ∈ extra, record.Valid)
    (hunknown : ∀ record ∈ extra, 4 < record.number) (back : Bytes) :
    processCommand lib server currTime db (front ++ serialize extra ++ back) =
        processCommand lib server currTime db (front ++ back) ∧
      getResponse lib client (front ++ serialize extra ++ back) =
        getResponse lib client (front ++ back) := by
  have hcommand : Command.decode (front ++ serialize extra ++ back) =
      Command.decode (front ++ back) :=
    decodeMessage_ignored hfront hvalid
      (fun record hrecord => Command.field_of_lt (hunknown record hrecord)) back
  have hresponse : Response.decode (front ++ serialize extra ++ back) =
      Response.decode (front ++ back) :=
    decodeMessage_ignored hfront hvalid
      (fun record hrecord => Response.field_of_lt (hunknown record hrecord)) back
  constructor
  · rw [processCommand, processCommand, authenticate, authenticate, hcommand]
  · rw [getResponse, getResponse, hresponse]

/-- The vote of the small election with a field five after it. -/
theorem unknown_fields_ignored_vote :
    processCommand SmallElection.referenceLib SmallElection.reference.config 5
        SmallElection.reference.database
        (encode (SmallElection.referenceVote CommandType.castBallot.value []) ++
          serialize [.bytes 5 [1, 2, 3]] ++ []) =
      processCommand SmallElection.referenceLib SmallElection.reference.config 5
        SmallElection.reference.database
        (encode (SmallElection.referenceVote CommandType.castBallot.value []) ++ []) := by
  have hvalid : ∀ record ∈ ([.bytes 5 [1, 2, 3]] : List Record), record.Valid := by
    intro record hrecord
    rw [List.mem_singleton.mp hrecord]
    exact Record.bytes_valid (by decide) (by decide) _
  have hparse := parse_serialize
    (SmallElection.referenceVote CommandType.castBallot.value []).records_valid
  exact (unknown_fields_ignored SmallElection.referenceLib SmallElection.reference.config
    ⟨[], [], [], ""⟩ 5 SmallElection.reference.database hparse hvalid (by simp) []).1

end VotingSystem.Client
