import ShardSync.Bytes
import ShardSync.Checksum
import ShardSync.Command.Arguments
import ShardSync.Command.Error
import ShardSync.Command.Job
import ShardSync.Command.Report
import ShardSync.Command.Usage
import ShardSync.Engine.Basic
import ShardSync.Engine.Error
import ShardSync.Engine.Tracker
import ShardSync.Json.Basic
import ShardSync.Json.Parser
import ShardSync.Log.Event
import ShardSync.Log.Journal
import ShardSync.Log.Line
import ShardSync.Log.Metrics
import ShardSync.Log.Scope
import ShardSync.Log.Severity
import ShardSync.Main
import ShardSync.Node
import ShardSync.Proofs.Engine.Failure
import ShardSync.Proofs.Engine.Identity
import ShardSync.Proofs.Engine.Marks
import ShardSync.Proofs.Engine.Refinement
import ShardSync.Proofs.Log.Lines
import ShardSync.Proofs.Recovery.Acceptance
import ShardSync.Proofs.Recovery.Accounting
import ShardSync.Proofs.Recovery.Batching
import ShardSync.Proofs.Recovery.Bookkeeping
import ShardSync.Proofs.Recovery.Callers
import ShardSync.Proofs.Recovery.Cleanup
import ShardSync.Proofs.Recovery.Coherence
import ShardSync.Proofs.Recovery.Completion
import ShardSync.Proofs.Recovery.Convergence
import ShardSync.Proofs.Recovery.Corruption
import ShardSync.Proofs.Recovery.Counters
import ShardSync.Proofs.Recovery.Coverage
import ShardSync.Proofs.Recovery.Dues
import ShardSync.Proofs.Recovery.Effects
import ShardSync.Proofs.Recovery.Exclusive
import ShardSync.Proofs.Recovery.Following
import ShardSync.Proofs.Recovery.Frames
import ShardSync.Proofs.Recovery.Installation
import ShardSync.Proofs.Recovery.Isolation
import ShardSync.Proofs.Recovery.Leftovers
import ShardSync.Proofs.Recovery.Lifecycle
import ShardSync.Proofs.Recovery.Limits
import ShardSync.Proofs.Recovery.Managing
import ShardSync.Proofs.Recovery.Numbering
import ShardSync.Proofs.Recovery.Outflow
import ShardSync.Proofs.Recovery.Parity
import ShardSync.Proofs.Recovery.Rebuilding
import ShardSync.Proofs.Recovery.Registry
import ShardSync.Proofs.Recovery.Retention
import ShardSync.Proofs.Recovery.Shipment
import ShardSync.Proofs.Recovery.Slices
import ShardSync.Proofs.Recovery.Supersession
import ShardSync.Proofs.Recovery.Transfers
import ShardSync.Proofs.Recovery.Verification
import ShardSync.Proofs.Segment.Deletion
import ShardSync.Proofs.Segment.Encoding
import ShardSync.Proofs.Segment.Queries
import ShardSync.Proofs.Segment.Resolution
import ShardSync.Proofs.Store.Custody
import ShardSync.Proofs.Store.Fidelity
import ShardSync.Proofs.Translog.Damage
import ShardSync.Proofs.Translog.Durability
import ShardSync.Proofs.Translog.Numbers
import ShardSync.Proofs.Wire.Groups
import ShardSync.Proofs.Wire.Streams
import ShardSync.Recovery.Error
import ShardSync.Recovery.Exchange.Basic
import ShardSync.Recovery.Exchange.Fate
import ShardSync.Recovery.Inventory
import ShardSync.Recovery.Manager
import ShardSync.Recovery.Message
import ShardSync.Recovery.Phase
import ShardSync.Recovery.Progress
import ShardSync.Recovery.Segments
import ShardSync.Recovery.Service
import ShardSync.Recovery.Session
import ShardSync.Recovery.Settings
import ShardSync.Recovery.Source.Basic
import ShardSync.Recovery.Source.Batches
import ShardSync.Recovery.Source.Chunks
import ShardSync.Recovery.Source.Handle
import ShardSync.Recovery.Source.Steps
import ShardSync.Recovery.Target.Basic
import ShardSync.Recovery.Target.Files
import ShardSync.Recovery.Target.Finalize
import ShardSync.Recovery.Target.Handle
import ShardSync.Recovery.Target.Operations
import ShardSync.Segment.Basic
import ShardSync.Segment.Builder
import ShardSync.Segment.Error
import ShardSync.Segment.Format
import ShardSync.Segment.Lookup
import ShardSync.Segment.Resolver
import ShardSync.Shard
import ShardSync.Store.Basic
import ShardSync.Store.Content
import ShardSync.Store.Error
import ShardSync.Store.Metadata
import ShardSync.Store.Tree
import ShardSync.Text.Hex
import ShardSync.Text.Quoted
import ShardSync.Text.Utf8
import ShardSync.Text.Uuid
import ShardSync.Text.Visible
import ShardSync.Translog.Basic
import ShardSync.Translog.Error
import ShardSync.Translog.Operation
import ShardSync.Wire.Error
import ShardSync.Wire.Reader
import ShardSync.Wire.Writer
