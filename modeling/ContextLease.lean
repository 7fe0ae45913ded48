import ContextLease.MachineNumbers
import ContextLease.Flagged
import ContextLease.RustText
import ContextLease.Json
import ContextLease.Types
import ContextLease.Validate
import ContextLease.Count
import ContextLease.Compress
import ContextLease.Ledger
import ContextLease.Allocate
import ContextLease.FillSpec
import ContextLease.BorrowSpec
import ContextLease.AllocationSafety
import ContextLease.State
import ContextLease.Prepare
import ContextLease.Arena
import ContextLease.PrepareSpec
import ContextLease.ArenaSpec
import ContextLease.BudgetSafety
import ContextLease.AdmissionSpec
import ContextLease.Calibration
import ContextLease.Commit
import ContextLease.Contracts
import ContextLease.CoveredShapes
import ContextLease.GreedyPrefix
import ContextLease.HostCounter
import ContextLease.Interleaving
import ContextLease.RequestIds
import ContextLease.Truncation
import ContextLease.BoundedLog
import ContextLease.BoundedQueue
import ContextLease.Committed
import ContextLease.ContentFree
import ContextLease.Decode
import ContextLease.EventInvariant
import ContextLease.HashOrders
import ContextLease.HostConfig
import ContextLease.HostLayout
import ContextLease.LeaseClash
import ContextLease.LeasePairs
import ContextLease.LockedWrites
import ContextLease.NoTrace
import ContextLease.Mirror
import ContextLease.TruncatingPipelines
import ContextLease.SemanticChoice
import ContextLease.SharedPasses
import ContextLease.ShrinkingPasses
import ContextLease.MessageGroups
import ContextLease.Serializability
import ContextLease.SharedFields
import ContextLease.SharedFlag
import ContextLease.UsageQueue
import ContextLease.Expansion
import ContextLease.FairShare
import ContextLease.HostAllocation
import ContextLease.Withheld
import ContextLease.LayoutParity
import ContextLease.Polling
import ContextLease.ReturnedSnapshot
import ContextLease.GeneratedNames
import ContextLease.FallThrough
import ContextLease.Provenance
import ContextLease.PlanAccounts
import ContextLease.PlanConsistency
import ContextLease.LeaseUse
import ContextLease.AllocationRange
import ContextLease.HostTruncation
import ContextLease.HostPipeline
import ContextLease.PipelineProvenance
import ContextLease.FencedBlocks
import ContextLease.Timestamps
import ContextLease.CanonicalBlocks
import ContextLease.CompositeKeys
import ContextLease.OwnedHeap
import ContextLease.ForeignInterface
import ContextLease.NativeBinding
import ContextLease.BindingSessions
import ContextLease.BindingSafety
import ContextLease.PagedLog
import ContextLease.EventStream
import ContextLease.FacadeStream
import ContextLease.RankedSelection
import ContextLease.HostSelection
import ContextLease.ReplyFormat
import ContextLease.ReplySafety
import ContextLease.PackageArena
import ContextLease.ReplyTexts
import ContextLease.PackageRefinement
import ContextLease.DebugServer
import ContextLease.InlineSecrets
import ContextLease.HostDeduplication
