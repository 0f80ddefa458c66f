import VotingSystem.Data.Bytes
import VotingSystem.Data.Transition
import VotingSystem.Data.Table
import VotingSystem.Data.Paging
import VotingSystem.Number.Residuosity
import VotingSystem.Number.Proth
import VotingSystem.Wire.Varint
import VotingSystem.Wire.Record
import VotingSystem.Wire.Message
import VotingSystem.Wire.Size
import VotingSystem.Protos.Shared
import VotingSystem.Protos.RoundTrip
import VotingSystem.Protos.Elections
import VotingSystem.Crypto.Gmp
import VotingSystem.Crypto.PaillierLib
import VotingSystem.Crypto.Cryptography
import VotingSystem.Crypto.KeyPair
import VotingSystem.Crypto.TallySum
import VotingSystem.Crypto.Signature
import VotingSystem.Storage.Schema
import VotingSystem.Server.Response
import VotingSystem.Server.CastBallot
import VotingSystem.Server.Queries
import VotingSystem.Server.ProcessCommand
import VotingSystem.Server.ThreadPool
import VotingSystem.Server.SmallElection
import VotingSystem.Server.Dispatch
import VotingSystem.Server.ReportedTally
import VotingSystem.Server.Pages
import VotingSystem.Server.PublicRecord
import VotingSystem.Server.BallotValidity
import VotingSystem.Server.Atomicity
import VotingSystem.Server.Authenticity
import VotingSystem.Server.Authorization
import VotingSystem.Server.StoredBallots
import VotingSystem.Server.TallyGenerator
import VotingSystem.Server.TallyTiming
import VotingSystem.Client.Client
import VotingSystem.Client.MessageSize
import VotingSystem.Client.Audit
import VotingSystem.Client.Elections
import VotingSystem.Client.HonestBallot
import VotingSystem.Server.FinalTallies
import VotingSystem.Server.Clock
import VotingSystem.Crypto.Combination
import VotingSystem.Server.Secrecy
import VotingSystem.Server.Connection
import VotingSystem.Server.Pool
import VotingSystem.Server.Conversation
import VotingSystem.Crypto.Opening
import VotingSystem.Client.TallyDecryption
import VotingSystem.Crypto.Binding
import VotingSystem.Protos.Vectors
import VotingSystem.Server.Grouping
import VotingSystem.Server.OneBallot
import VotingSystem.Data.Batches
import VotingSystem.Protos.ElectionVectors
import VotingSystem.Storage.Migrations
import VotingSystem.Client.AuditLoop
import VotingSystem.Client.Freshness
import VotingSystem.Storage.ConcurrentMigrations
import VotingSystem.Server.Shutdown
import VotingSystem.Crypto.CiphertextBytes
import VotingSystem.Embedded.Keypad
import VotingSystem.Crypto.KeyGeneration
import VotingSystem.Data.Progress
import VotingSystem.Server.ShutdownProgress
import VotingSystem.Data.Simulation
import VotingSystem.Spec.BallotBox
import VotingSystem.Server.BallotBoxView
import VotingSystem.Server.Refinement
import VotingSystem.Server.TickCompletion
import VotingSystem.Client.Report
import VotingSystem.Server.Network
import VotingSystem.Server.SocketLoops
import VotingSystem.Data.Queue
import VotingSystem.Server.PoolQueue
import VotingSystem.Server.SilentClients
import VotingSystem.Client.UnknownFields
import VotingSystem.Client.Receipt
import VotingSystem.Client.Dialogue
import VotingSystem.Embedded.System
import VotingSystem.Storage.MigrationProgress
import VotingSystem.Client.Registration
import VotingSystem.Server.PoolProgress
import VotingSystem.Server.SmallVote
import VotingSystem.Server.LoopProgress
