import DocSync.Buffer.Memory
import DocSync.Buffer.Queue
import DocSync.Change.Coalesce
import DocSync.Change.Record
import DocSync.Change.Resolve
import DocSync.Change.Window
import DocSync.Checkpoint.Store
import DocSync.Decimal.Double
import DocSync.Decimal.Scaled
import DocSync.Decimal.Shortest
import DocSync.Digest.Sha256
import DocSync.Document.Compile
import DocSync.Document.Fetch
import DocSync.Document.Identity
import DocSync.Document.RowTree
import DocSync.Domain.Direction
import DocSync.Domain.Folding
import DocSync.Domain.Joiner
import DocSync.Domain.Name
import DocSync.Domain.Punycode
import DocSync.Error
import DocSync.Failure
import DocSync.Job.Basic
import DocSync.Job.Cycle
import DocSync.Job.Run
import DocSync.Json.Basic
import DocSync.Json.Order
import DocSync.Json.Parser
import DocSync.Json.Printer
import DocSync.Keyed
import DocSync.Log.Line
import DocSync.Node.Declaration
import DocSync.Node.Error
import DocSync.Node.Plan
import DocSync.Program
import DocSync.Proofs.Buffer.Draining
import DocSync.Proofs.Change.Climbing
import DocSync.Proofs.Change.Coalesce
import DocSync.Proofs.Change.Current
import DocSync.Proofs.Change.Named
import DocSync.Proofs.Change.NormalForm
import DocSync.Proofs.Change.Operations
import DocSync.Proofs.Change.Resolve
import DocSync.Proofs.Change.Window
import DocSync.Proofs.Conversation
import DocSync.Proofs.Decimal.Monotone
import DocSync.Proofs.Decimal.Numeral
import DocSync.Proofs.Decimal.Rounding
import DocSync.Proofs.Dialogue
import DocSync.Proofs.Document.Batches
import DocSync.Proofs.Document.Embedded
import DocSync.Proofs.Document.Faithful
import DocSync.Proofs.Document.Fetch
import DocSync.Proofs.Document.Identity
import DocSync.Proofs.Document.Joined
import DocSync.Proofs.Document.Listing
import DocSync.Proofs.Document.Paging
import DocSync.Proofs.Document.Scan
import DocSync.Proofs.Document.Shape
import DocSync.Proofs.Job.Apply
import DocSync.Proofs.Job.Aside
import DocSync.Proofs.Job.Calls
import DocSync.Proofs.Job.Catching
import DocSync.Proofs.Job.Closing
import DocSync.Proofs.Job.Convergence
import DocSync.Proofs.Job.Exact
import DocSync.Proofs.Job.Matching
import DocSync.Proofs.Job.Opening
import DocSync.Proofs.Job.Own
import DocSync.Proofs.Job.Parts
import DocSync.Proofs.Job.Past
import DocSync.Proofs.Job.Progress
import DocSync.Proofs.Job.Protocol
import DocSync.Proofs.Job.Pulling
import DocSync.Proofs.Job.Pursuit
import DocSync.Proofs.Job.Reading
import DocSync.Proofs.Job.Redelivery
import DocSync.Proofs.Job.Rederive
import DocSync.Proofs.Job.Refresh
import DocSync.Proofs.Job.Renewal
import DocSync.Proofs.Job.Resync
import DocSync.Proofs.Job.Settling
import DocSync.Proofs.Job.Slots
import DocSync.Proofs.Job.Sound
import DocSync.Proofs.Job.Stopping
import DocSync.Proofs.Job.Supervision
import DocSync.Proofs.Job.Turn
import DocSync.Proofs.Json.Kinds
import DocSync.Proofs.Json.Order
import DocSync.Proofs.Json.Reading
import DocSync.Proofs.Json.Text
import DocSync.Proofs.Keyed
import DocSync.Proofs.Lists
import DocSync.Proofs.Log.Framing
import DocSync.Proofs.Node.Arena
import DocSync.Proofs.Node.Declaration
import DocSync.Proofs.Node.Plan
import DocSync.Proofs.Relation.Catalog
import DocSync.Proofs.Relation.Choice
import DocSync.Proofs.Relation.Explained
import DocSync.Proofs.Relation.Frames
import DocSync.Proofs.Relation.History
import DocSync.Proofs.Relation.Pending
import DocSync.Proofs.Relation.Quoting
import DocSync.Proofs.Relation.Replay
import DocSync.Proofs.Relation.Rows
import DocSync.Proofs.Run
import DocSync.Proofs.Search.Address
import DocSync.Proofs.Search.Lookup
import DocSync.Proofs.Search.Scroll
import DocSync.Proofs.Server.Scopes
import DocSync.Proofs.Server.Triggers
import DocSync.Proofs.Service.Retry
import DocSync.Proofs.Settings.Names
import DocSync.Proofs.Simulation.Apart
import DocSync.Proofs.Simulation.Backlog
import DocSync.Proofs.Simulation.Buffers
import DocSync.Proofs.Simulation.Feeding
import DocSync.Proofs.Simulation.Interleaving
import DocSync.Proofs.Simulation.Marks
import DocSync.Proofs.Simulation.Outage
import DocSync.Proofs.Simulation.QueueFiles
import DocSync.Proofs.Simulation.Quiet
import DocSync.Proofs.Simulation.Rest
import DocSync.Proofs.Simulation.Scopes
import DocSync.Proofs.Simulation.Sinks
import DocSync.Proofs.Simulation.Users
import DocSync.Proofs.Simulation.Views
import DocSync.Proofs.Simulation.World
import DocSync.Proofs.Sink.Delivery
import DocSync.Proofs.Sink.Retrying
import DocSync.Proofs.Sink.Writing
import DocSync.Proofs.Sorting
import DocSync.Proofs.Url.Encode
import DocSync.Relation.Catalog
import DocSync.Relation.Database
import DocSync.Relation.Frames
import DocSync.Relation.Query
import DocSync.Relation.Schema
import DocSync.Relation.Sql
import DocSync.Search.Base64
import DocSync.Search.Http
import DocSync.Search.Peer
import DocSync.Search.Sink
import DocSync.Server.Catalog
import DocSync.Server.Cell
import DocSync.Server.Dialogue
import DocSync.Server.DocumentTable
import DocSync.Server.Listener
import DocSync.Server.Peer
import DocSync.Server.Readiness
import DocSync.Server.Session
import DocSync.Server.Slot
import DocSync.Server.Triggers
import DocSync.Service.Call
import DocSync.Service.Retry
import DocSync.Service.Session
import DocSync.Settings.Basic
import DocSync.Settings.Files
import DocSync.Simulation.Answer
import DocSync.Simulation.Daemon
import DocSync.Simulation.Fault
import DocSync.Simulation.Work
import DocSync.Simulation.World
import DocSync.Sink.Error
import DocSync.Sink.IndexName
import DocSync.Sink.Memory
import DocSync.Sink.Writer
import DocSync.Text.Blank
import DocSync.Text.Calendar
import DocSync.Text.CharSet
import DocSync.Text.Composition
import DocSync.Text.Digit
import DocSync.Text.Mark
import DocSync.Text.Quoted
import DocSync.Text.SlotName
import DocSync.Text.Split
import DocSync.Text.Timestamp
import DocSync.Text.Unassigned
import DocSync.Text.Unprintable
import DocSync.Toml.Parser
import DocSync.Toml.Scalar
import DocSync.Toml.Table
import DocSync.Url.Basic
import DocSync.Url.Encode
import DocSync.Url.Host
import DocSync.Url.Parser
import DocSync.Url.Path
import DocSync.Wire.Read
import DocSync.Wire.Server
import DocSync.Wire.Write
