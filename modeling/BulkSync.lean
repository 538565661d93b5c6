import BulkSync.Binary.Arithmetic
import BulkSync.Binary.Format
import BulkSync.BitSet
import BulkSync.Concurrency
import BulkSync.Element
import BulkSync.Engine.Board
import BulkSync.Engine.Config
import BulkSync.Engine.Handler
import BulkSync.Engine.Lifecycle
import BulkSync.Engine.Run
import BulkSync.Engine.Strand
import BulkSync.Engine.Superstep
import BulkSync.Fault
import BulkSync.Graph.RowGraph
import BulkSync.Graph.Rows
import BulkSync.Graph.Shape
import BulkSync.Graph.View
import BulkSync.GuardedCells
import BulkSync.Json.Codec
import BulkSync.Json.Printer
import BulkSync.Json.Reader
import BulkSync.Json.Value
import BulkSync.Message.Inbox
import BulkSync.Message.Mail
import BulkSync.Message.Queue
import BulkSync.Message.Reduced
import BulkSync.Message.Reducer
import BulkSync.Paged.Basic
import BulkSync.Paged.Cells
import BulkSync.Paged.Cursor
import BulkSync.Paged.Layout
import BulkSync.Partition.Checked
import BulkSync.Partition.Cut
import BulkSync.Partition.Degrees
import BulkSync.Partition.Span
import BulkSync.PathTable
import BulkSync.ProgressMeter
import BulkSync.Property.Kind
import BulkSync.Property.Schema
import BulkSync.Property.Store
import BulkSync.Script.Computation
import BulkSync.Script.Expr
import BulkSync.Script.Instruction
import BulkSync.Script.Operator
import BulkSync.StopFlags
import BulkSync.Task.Action
import BulkSync.Task.Batch
import BulkSync.Task.Pool
import BulkSync.Task.Script
import BulkSync.Value
import BulkSync.Vertex.Calls
import BulkSync.Vertex.Computation
import BulkSync.Vertex.Program
import BulkSync.Word
import BulkSync.Proofs.Paged.Pages
import BulkSync.Proofs.Paged.Regular
import BulkSync.Proofs.BitSet
import BulkSync.Proofs.Graph.Grouping
import BulkSync.Proofs.Fault
import BulkSync.Proofs.Message.Reduced
import BulkSync.Proofs.Message.Mail
import BulkSync.Proofs.Property.Words
import BulkSync.Proofs.Partition.Tiling
import BulkSync.Proofs.Task.Sequence
import BulkSync.Proofs.Task.Schedule
import BulkSync.Proofs.Task.Lives
import BulkSync.Proofs.Task.Consistency
import BulkSync.Proofs.Task.Progress
import BulkSync.Proofs.Task.Front
import BulkSync.Proofs.Task.Turns
import BulkSync.Proofs.Vertex.Deed
import BulkSync.Proofs.Engine.Moves
import BulkSync.Proofs.Engine.Visit
import BulkSync.Proofs.Engine.Work
import BulkSync.Proofs.Engine.Master
import BulkSync.Proofs.Engine.Events
import BulkSync.Proofs.Engine.Step
import BulkSync.Proofs.Engine.Course
import BulkSync.Proofs.Engine.Record
import BulkSync.Proofs.Engine.Letters
import BulkSync.Proofs.Engine.Delivery
import BulkSync.Proofs.Engine.Stopping
import BulkSync.Proofs.Message.OrderFree
import BulkSync.Proofs.Engine.Independence
import BulkSync.Proofs.Engine.Fixpoint
import BulkSync.Proofs.Engine.Allowance
import BulkSync.Proofs.Engine.Agreement
import BulkSync.Proofs.Engine.Reduction
import BulkSync.Proofs.Task.Woven
import BulkSync.Proofs.Engine.Strand
import BulkSync.Proofs.Engine.Weave
import BulkSync.Proofs.Engine.Interleaving
import BulkSync.Proofs.Paged.Cursor
import BulkSync.Proofs.Paged.Filling
import BulkSync.Proofs.Paged.Refinement
import BulkSync.Proofs.Message.Acceptance
import BulkSync.Proofs.Engine.Success
import BulkSync.Proofs.Graph.Undirected
import BulkSync.Proofs.Algorithms.Labels
import BulkSync.Proofs.Engine.Start
import BulkSync.Proofs.Algorithms.Spreading
import BulkSync.Proofs.Algorithms.Components
import BulkSync.Proofs.Paged.Shared
import BulkSync.Proofs.Paged.Exchange
import BulkSync.Proofs.Paged.Agreement
import BulkSync.Proofs.Paged.Reachable
import BulkSync.Proofs.Paged.Coverage
import BulkSync.Proofs.Paged.Footprint
import BulkSync.Proofs.BitSet.Members
import BulkSync.Proofs.Guarded.Locks
import BulkSync.Proofs.Guarded.Parties
import BulkSync.Proofs.Graph.Construction
import BulkSync.Proofs.Partition.Pieces
import BulkSync.Proofs.Task.Outcome
import BulkSync.Proofs.Task.FirstFailure
import BulkSync.Proofs.Json.Reading
import BulkSync.Proofs.Property.Keys
import BulkSync.Proofs.Json.WrittenForms
import BulkSync.Proofs.Property.Refinement
import BulkSync.Proofs.Property.Distinct
import BulkSync.Proofs.Engine.Keeping
import BulkSync.Proofs.Engine.Values
import BulkSync.Proofs.Engine.Lifecycle
import BulkSync.Proofs.Binary.Order
import BulkSync.Proofs.Paths.Entries
import BulkSync.Proofs.Paths.Histories
import BulkSync.Proofs.Paths.Lineages
import BulkSync.Proofs.Paths.Forests
import BulkSync.Proofs.Paged.Interference
import BulkSync.Proofs.Message.Compaction
import BulkSync.Proofs.Message.Isolation
import BulkSync.Proofs.Message.Extremes
import BulkSync.Proofs.Message.AnyOrder
import BulkSync.Proofs.Engine.Cancellation
import BulkSync.Proofs.Partition.Greedy
import BulkSync.Proofs.Graph.Packing
import BulkSync.Proofs.Graph.Listing
import BulkSync.Proofs.Graph.Traversal
import BulkSync.Proofs.Graph.Symmetry
import BulkSync.Proofs.Partition.Arithmetic
import BulkSync.Proofs.Partition.Pairs
import BulkSync.Proofs.Engine.Sight
import BulkSync.Proofs.Engine.Tour
import BulkSync.Proofs.Engine.Attribution
import BulkSync.Proofs.Paths.Offers
import BulkSync.Proofs.Paths.Improvements
import BulkSync.Proofs.Paths.Search
import BulkSync.Proofs.Property.Projection
import BulkSync.Proofs.Engine.Result
import BulkSync.Proofs.Calls
import BulkSync.Proofs.ProgressMeter
import BulkSync.Proofs.Engine.Sound
import BulkSync.Proofs.Engine.Confinement
