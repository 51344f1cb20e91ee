import LedgerDesk.Foundation.Runs
import LedgerDesk.Foundation.AppendLog
import LedgerDesk.Foundation.GuardedWalk
import LedgerDesk.Foundation.Rows
import LedgerDesk.Foundation.Tables
import LedgerDesk.Foundation.Transactions
import LedgerDesk.Foundation.Delimited
import LedgerDesk.Foundation.Joined
import LedgerDesk.Foundation.Regex
import LedgerDesk.Foundation.Replace
import LedgerDesk.Foundation.Separated
import LedgerDesk.Foundation.JsonText
import LedgerDesk.Foundation.JsonUnits
import LedgerDesk.Foundation.Surrogates
import LedgerDesk.Foundation.Lines
import LedgerDesk.Foundation.JsonReader
import LedgerDesk.Foundation.JsonValue
import LedgerDesk.Foundation.PathTemplate
import LedgerDesk.Foundation.Inversions
import LedgerDesk.Queue.KendallTau
import LedgerDesk.Queue.Sensitivity
import LedgerDesk.Foundation.Heap
import LedgerDesk.Foundation.Collation
import LedgerDesk.Foundation.Capacity
import LedgerDesk.Foundation.CounterRow
import LedgerDesk.Foundation.Checks
import LedgerDesk.Agents.Canonical
import LedgerDesk.Agents.Text
import LedgerDesk.Agents.Injective
import LedgerDesk.Agents.Fixed
import LedgerDesk.Ledger.Row
import LedgerDesk.Ledger.Store
import LedgerDesk.Ledger.Chain
import LedgerDesk.Ledger.Audit
import LedgerDesk.Ledger.Preimage
import LedgerDesk.Ledger.PromotionRow
import LedgerDesk.Ledger.Promotion
import LedgerDesk.Ledger.PromotionPair
import LedgerDesk.Ledger.PromotionRace
import LedgerDesk.Gateway.Call
import LedgerDesk.Gateway.Redaction
import LedgerDesk.Gateway.Canary
import LedgerDesk.Gateway.Scans
import LedgerDesk.Gateway.Excerpts
import LedgerDesk.Gateway.Pair
import LedgerDesk.Gateway.Shapes
import LedgerDesk.Gateway.Machine
import LedgerDesk.Gateway.Budget
import LedgerDesk.Gateway.Pin
import LedgerDesk.Gateway.Fleet
import LedgerDesk.Gateway.Coherence
import LedgerDesk.Gateway.Spent
import LedgerDesk.Queue.Priority
import LedgerDesk.Queue.Order
import LedgerDesk.Queue.LazyHeap
import LedgerDesk.Queue.Replay
import LedgerDesk.Queue.Horizon
import LedgerDesk.Queue.Dedupe
import LedgerDesk.Queue.Partition
import LedgerDesk.Tickets.Intake
import LedgerDesk.Tickets.Submissions
import LedgerDesk.Tickets.Acknowledged
import LedgerDesk.Tickets.Collapse
import LedgerDesk.Tickets.Dedupe
import LedgerDesk.Foundation.OpenTable
import LedgerDesk.Kb.Gap
import LedgerDesk.Kb.Uniqueness
import LedgerDesk.Kb.Closure
import LedgerDesk.Kb.Admission
import LedgerDesk.Kb.Admitted
import LedgerDesk.Kb.Advance
import LedgerDesk.Kb.Digest
import LedgerDesk.Kb.Minted
import LedgerDesk.Access.Canonical
import LedgerDesk.Contracts.Scalars
import LedgerDesk.Contracts.Strict
import LedgerDesk.Contracts.Decode
import LedgerDesk.Contracts.Retention
import LedgerDesk.Contracts.Paths
import LedgerDesk.Extraction.Text
import LedgerDesk.Access.Authority
import LedgerDesk.Access.Store
import LedgerDesk.Access.Requests
import LedgerDesk.Access.Invitations
import LedgerDesk.Access.Service
import LedgerDesk.Access.Effects
import LedgerDesk.Access.Lifecycle
import LedgerDesk.Access.Liveness
import LedgerDesk.Access.Deadline
import LedgerDesk.Foundation.HeadLock
import LedgerDesk.Intake.Fence
import LedgerDesk.Intake.PhaseFence
import LedgerDesk.Access.Sessions
import LedgerDesk.Access.Invalidation
import LedgerDesk.Access.Census
import LedgerDesk.Access.Paging
import LedgerDesk.Access.Throttle
import LedgerDesk.Triage.Escalation
import LedgerDesk.Triage.Features
import LedgerDesk.Triage.Cycle
import LedgerDesk.Triage.Attempts
import LedgerDesk.Reception.Answers
import LedgerDesk.Reception.Data
import LedgerDesk.Reception.Lifecycle
import LedgerDesk.Reception.Projection
import LedgerDesk.Reception.Service
import LedgerDesk.Reception.Standing
import LedgerDesk.Runtime.Registry
import LedgerDesk.Runtime.Coherence
import LedgerDesk.Runtime.Reservations
import LedgerDesk.Reading.Policy
import LedgerDesk.Reading.Projection
import LedgerDesk.Reading.Noninterference
import LedgerDesk.Preparation.Material
import LedgerDesk.Preparation.Contract
import LedgerDesk.Preparation.Producer
import LedgerDesk.Preparation.Changes
import LedgerDesk.Preparation.Obligations
import LedgerDesk.Preparation.Browser
import LedgerDesk.Preparation.Selected
import LedgerDesk.Preparation.Acceptance
import LedgerDesk.Constitution.Item
import LedgerDesk.Constitution.Service
import LedgerDesk.Constitution.World
import LedgerDesk.Constitution.Commit
import LedgerDesk.Constitution.Uniqueness
import LedgerDesk.Constitution.Pieces
import LedgerDesk.Constitution.Interleaving
import LedgerDesk.Constitution.Standing
import LedgerDesk.Durable.Tables
import LedgerDesk.Durable.Conservation
import LedgerDesk.Foundation.Async
import LedgerDesk.Foundation.Promises
import LedgerDesk.Workspace.View
import LedgerDesk.Workspace.Journal
import LedgerDesk.Workspace.Client
import LedgerDesk.Workspace.Controller
import LedgerDesk.Workspace.Machine
import LedgerDesk.Workspace.Keeping
import LedgerDesk.Workspace.Turns
import LedgerDesk.Workspace.Opening
import LedgerDesk.Workspace.Staleness
import LedgerDesk.Workspace.Sends
import LedgerDesk.Drafting.Grounding
import LedgerDesk.Drafting.Envelope
import LedgerDesk.Drafting.Cycle
import LedgerDesk.Drafting.Overlap
import LedgerDesk.Foundation.Cells
import LedgerDesk.Pipeline.Unit
import LedgerDesk.Pipeline.Chain
import LedgerDesk.Pipeline.Progress
import LedgerDesk.Pipeline.Steps
import LedgerDesk.Pipeline.Cycles
import LedgerDesk.Pipeline.Invariant
import LedgerDesk.Pipeline.Effects
import LedgerDesk.Pipeline.Guard
import LedgerDesk.Pipeline.Decisions
import LedgerDesk.Pipeline.Decided
import LedgerDesk.Pipeline.RunQueue
import LedgerDesk.Pipeline.Serial
import LedgerDesk.Reading.Contract
import LedgerDesk.Reading.Reader
import LedgerDesk.Reading.Coherent
