import ReplicatedLog.Main
import ReplicatedLog.Replication.Script
import ReplicatedLog.Proofs.Disk.Directory
import ReplicatedLog.Proofs.Disk.Volume
import ReplicatedLog.Proofs.Log.Append
import ReplicatedLog.Proofs.Log.Cursor
import ReplicatedLog.Proofs.Log.History
import ReplicatedLog.Proofs.Log.Readers
import ReplicatedLog.Proofs.Log.Trailing
import ReplicatedLog.Proofs.Replication.Client
import ReplicatedLog.Proofs.Replication.Credit
import ReplicatedLog.Proofs.Replication.Fidelity
import ReplicatedLog.Proofs.Replication.Retention
import ReplicatedLog.Proofs.Log.Consumption
import ReplicatedLog.Proofs.Replication.Reception
import ReplicatedLog.Proofs.Replication.Waking
import ReplicatedLog.Proofs.Store.Listeners
import ReplicatedLog.Proofs.Replication.Attention
import ReplicatedLog.Proofs.Replication.ConnectionLoop
import ReplicatedLog.Proofs.Replication.Vigilance
import ReplicatedLog.Proofs.Text.Decimal
import ReplicatedLog.Proofs.Disk.Checkpoint
import ReplicatedLog.Proofs.Log.Reopening
import ReplicatedLog.Proofs.Replication.Resuming
import ReplicatedLog.Proofs.Replication.Marks
import ReplicatedLog.Proofs.Replication.Relaunch
import ReplicatedLog.Proofs.Wire.Arrival
import ReplicatedLog.Proofs.Zstd.Storing
import ReplicatedLog.Proofs.Block.Decoders
import ReplicatedLog.Proofs.Block.Entries
import ReplicatedLog.Proofs.Block.Stream
import ReplicatedLog.Proofs.Log.Contents
import ReplicatedLog.Proofs.Store.Recording
import ReplicatedLog.Proofs.Writer.Ledger
import ReplicatedLog.Proofs.Writer.Writing
import ReplicatedLog.Proofs.Writer.Run
import ReplicatedLog.Proofs.Log.Discerning
import ReplicatedLog.Proofs.Log.Survival
import ReplicatedLog.Proofs.Log.Summary
import ReplicatedLog.Proofs.Log.Coverage
import ReplicatedLog.Proofs.Program.Comparison
import ReplicatedLog.Proofs.Block.Written
import ReplicatedLog.Proofs.Log.Expiry
import ReplicatedLog.Proofs.Log.Walking
import ReplicatedLog.Proofs.Log.WholeBlocks
import ReplicatedLog.Proofs.Replication.Recorded
import ReplicatedLog.Proofs.Wire.Truncation
import ReplicatedLog.Proofs.Log.Failure
import ReplicatedLog.Proofs.Store.Positioning
import ReplicatedLog.Proofs.Store.Posts
import ReplicatedLog.Proofs.Replication.Locality
import ReplicatedLog.Proofs.Replication.Placement
import ReplicatedLog.Proofs.Replication.Isolation
import ReplicatedLog.Proofs.Wire.Grammar
import ReplicatedLog.Proofs.Segment.Code
import ReplicatedLog.Proofs.Log.Dating
import ReplicatedLog.Proofs.Log.Mirror
import ReplicatedLog.Proofs.Store.Lifecycle
import ReplicatedLog.Proofs.Retry
import ReplicatedLog.Proofs.Wire.Spelling
import ReplicatedLog.Proofs.Block.Grammar
import ReplicatedLog.Proofs.Disk.LastOffsets
