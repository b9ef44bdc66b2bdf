import CcbCore.Library.Run
import CcbCore.Journal.Authority
import CcbCore.Library.ThreeValued
import CcbCore.Library.Table
import CcbCore.Text.Postgres
import CcbCore.Journal.ReferenceSpec
import CcbCore.Projection.Functions
import CcbCore.Projection.FunctionSpec
import CcbCore.Projection.Runs
import CcbCore.Projection.TokenFence
import CcbCore.Projection.Plane
import CcbCore.Library.Prog
import CcbCore.Append.Envelope
import CcbCore.Append.Operation
import CcbCore.Append.Effects
import CcbCore.Library.CommitGraph
import CcbCore.Library.Interference
import CcbCore.Append.Backend
import CcbCore.Append.Linear
import CcbCore.Message.Grammar
import CcbCore.Lane.Validation
import CcbCore.Edge.Document
import CcbCore.Edge.Names
import CcbCore.Edge.Splitting
import CcbCore.Ledger.Schema
import CcbCore.Ledger.Statements
import CcbCore.Ledger.Chain
import CcbCore.Ledger.Invariant
import CcbCore.Ledger.Immutability
import CcbCore.Ledger.Operations
import CcbCore.Ledger.Suspension
import CcbCore.Ledger.Supersession
import CcbCore.Text.CodePoints
import CcbCore.Radar.Envelope
import CcbCore.Radar.Registry
import CcbCore.Library.Selection
import CcbCore.Radar.Routing
import CcbCore.Radar.DeadLetters
import CcbCore.Radar.Conservation
import CcbCore.Radar.Admission
import CcbCore.Radar.Parsing
import CcbCore.Relay.Envelope
import CcbCore.Relay.Receipt
import CcbCore.Relay.Run
import CcbCore.Library.Typestate
import CcbCore.Relay.Custody
import CcbCore.Relay.Once
import CcbCore.Projection.Contents
import CcbCore.Slack.Claims
import CcbCore.Radar.HeartbeatAtomicity
import CcbCore.Radar.HeartbeatHistory
import CcbCore.Relay.Evidence
import CcbCore.Radar.RoundTrip
import CcbCore.Relay.Replay
import CcbCore.Relay.Stranding
import CcbCore.Assignments.Functions
import CcbCore.Assignments.Visits
import CcbCore.Assignments.Settling
import CcbCore.Assignments.Chains
import CcbCore.Assignments.Confluence
import CcbCore.Receipts.Functions
import CcbCore.Receipts.Credits
import CcbCore.Receipts.Rebuild
import CcbCore.Receipts.ThirdParties
import CcbCore.Provider.Commands
import CcbCore.Provider.Subscriptions
import CcbCore.Guard.Claims
import CcbCore.Guard.Function
import CcbCore.Guard.Once
import CcbCore.Lane.Listing
import CcbCore.Lane.Segment
import CcbCore.Lane.AppendOnly
import CcbCore.Lane.Pushes
import CcbCore.Journal.Lockstep
import CcbCore.Journal.Refinement
import CcbCore.Radar.Ownership
import CcbCore.Library.Mention
import CcbCore.Radar.Delivery
import CcbCore.Radar.Deduplication
import CcbCore.Radar.Rollback
import CcbCore.Library.BinaryHeap
import CcbCore.Radar.Queue
import CcbCore.Radar.DeadLetterCalls
import CcbCore.Radar.ReplayOnce
import CcbCore.Radar.Equality
import CcbCore.Radar.RawObjects
import CcbCore.Radar.EvidenceComplete
import CcbCore.Radar.Wire
import CcbCore.Message.Body
import CcbCore.Append.BranchBound
import CcbCore.Append.Retry
import CcbCore.Library.Digraph
import CcbCore.Workflow.DependencyGraph
import CcbCore.Library.Joined
import CcbCore.Relay.WireTexts
import CcbCore.Library.Index
import CcbCore.Slack.Endpoints
import CcbCore.Text.Repr
import CcbCore.Reconcile.Compare
import CcbCore.Ledger.Acceptance
import CcbCore.Relay.ClaimRace
import CcbCore.Reconcile.Target
import CcbCore.Assignments.Dependencies
import CcbCore.Radar.TextSize
import CcbCore.Text.Base64
import CcbCore.Edge.Admission
import CcbCore.Lane.Transport
import CcbCore.Lane.Collection
import CcbCore.Lane.Limits
import CcbCore.Lane.Chunking
import CcbCore.Edge.Concurrency
import CcbCore.Edge.Estimate
import CcbCore.Edge.Jwks
import CcbCore.Radar.HeartbeatWait
import CcbCore.Radar.ConnectomeShadow
import CcbCore.Radar.VisualIdentity
import CcbCore.Append.Admission
import CcbCore.Edge.Journal
import CcbCore.Reconcile.Coverage
import CcbCore.Reconcile.Reports
import CcbCore.Reconcile.Taking
