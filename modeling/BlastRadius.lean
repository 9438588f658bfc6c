import BlastRadius.Command.Invocation
import BlastRadius.Command.Run
import BlastRadius.Command.Switch
import BlastRadius.Command.Workspace
import BlastRadius.Files.Attachment
import BlastRadius.Files.Place
import BlastRadius.Files.Workspace
import BlastRadius.Graph.Basic
import BlastRadius.Graph.Error
import BlastRadius.Graph.Mermaid
import BlastRadius.Http.Address
import BlastRadius.Http.Error
import BlastRadius.Http.MediaType
import BlastRadius.Http.Message
import BlastRadius.Http.Resource
import BlastRadius.Http.Service
import BlastRadius.Http.Settings
import BlastRadius.Impact.Error
import BlastRadius.Impact.Operation
import BlastRadius.Impact.Outcomes
import BlastRadius.Impact.Program
import BlastRadius.Impact.Written
import BlastRadius.Inventory.Artifacts
import BlastRadius.Inventory.Binding
import BlastRadius.Inventory.Dependency
import BlastRadius.Inventory.Endpoint
import BlastRadius.Inventory.Fixture
import BlastRadius.Inventory.Vulnerability
import BlastRadius.Json.Decode
import BlastRadius.Json.Draft
import BlastRadius.Json.Numeral
import BlastRadius.Json.Precision
import BlastRadius.Json.Value
import BlastRadius.Main
import BlastRadius.Node.Artifact
import BlastRadius.Node.Basic
import BlastRadius.Node.Codec
import BlastRadius.Node.Id
import BlastRadius.Node.Key
import BlastRadius.Node.Kind
import BlastRadius.Proofs.Graph.Changes
import BlastRadius.Proofs.Graph.Coherence
import BlastRadius.Proofs.Graph.Compact
import BlastRadius.Proofs.Graph.EdgeOrder
import BlastRadius.Proofs.Graph.Entries
import BlastRadius.Proofs.Graph.Flowchart
import BlastRadius.Proofs.Graph.Parts
import BlastRadius.Proofs.Graph.Placeholders
import BlastRadius.Proofs.Graph.Rebuilding
import BlastRadius.Proofs.Graph.Valid
import BlastRadius.Proofs.Http.Rejections
import BlastRadius.Proofs.Impact.Atomicity
import BlastRadius.Proofs.Impact.Batches
import BlastRadius.Proofs.Impact.BestEffort
import BlastRadius.Proofs.Impact.Blocks
import BlastRadius.Proofs.Impact.Capacity
import BlastRadius.Proofs.Impact.Climbing
import BlastRadius.Proofs.Impact.Failures
import BlastRadius.Proofs.Impact.Growth
import BlastRadius.Proofs.Impact.Histories
import BlastRadius.Proofs.Impact.Interleavings
import BlastRadius.Proofs.Impact.Merging
import BlastRadius.Proofs.Impact.Rejections
import BlastRadius.Proofs.Impact.Removal
import BlastRadius.Proofs.Impact.Retries
import BlastRadius.Proofs.Impact.Traversal
import BlastRadius.Proofs.Inventory.Acceptance
import BlastRadius.Proofs.Inventory.Assertions
import BlastRadius.Proofs.Inventory.CallRecords
import BlastRadius.Proofs.Inventory.Counterparts
import BlastRadius.Proofs.Inventory.DistinctBindings
import BlastRadius.Proofs.Inventory.Enrolment
import BlastRadius.Proofs.Inventory.ExactBindings
import BlastRadius.Proofs.Inventory.Exposure
import BlastRadius.Proofs.Inventory.Facts
import BlastRadius.Proofs.Inventory.FixtureText
import BlastRadius.Proofs.Inventory.Gains
import BlastRadius.Proofs.Inventory.Ledger
import BlastRadius.Proofs.Inventory.Listings
import BlastRadius.Proofs.Inventory.Loading
import BlastRadius.Proofs.Inventory.Outgrowth
import BlastRadius.Proofs.Inventory.Placement
import BlastRadius.Proofs.Inventory.Registration
import BlastRadius.Proofs.Inventory.Reloading
import BlastRadius.Proofs.Inventory.Reordering
import BlastRadius.Proofs.Inventory.Sections
import BlastRadius.Proofs.Inventory.Seeding
import BlastRadius.Proofs.Inventory.Settlement
import BlastRadius.Proofs.Inventory.Targets
import BlastRadius.Proofs.Inventory.Threats
import BlastRadius.Proofs.Json.Reading
import BlastRadius.Proofs.Json.Records
import BlastRadius.Proofs.Node.Codec
import BlastRadius.Proofs.Node.KeyText
import BlastRadius.Proofs.Node.Order
import BlastRadius.Proofs.Parity.Agreement
import BlastRadius.Proofs.Parity.Alike
import BlastRadius.Proofs.Parity.Bindings
import BlastRadius.Proofs.Parity.Dependencies
import BlastRadius.Proofs.Parity.Histories
import BlastRadius.Proofs.Parity.Ingestion
import BlastRadius.Proofs.Parity.Loading
import BlastRadius.Proofs.Parity.Lockstep
import BlastRadius.Proofs.Parity.Operations
import BlastRadius.Proofs.Parity.Propagation
import BlastRadius.Proofs.Parity.Queries
import BlastRadius.Proofs.Parity.Renaming
import BlastRadius.Proofs.Parity.Resets
import BlastRadius.Proofs.Parity.Steps
import BlastRadius.Proofs.Parity.Translation
import BlastRadius.Proofs.Parity.Vulnerabilities
import BlastRadius.Proofs.Propagation.Accounting
import BlastRadius.Proofs.Propagation.Calls
import BlastRadius.Proofs.Propagation.Distances
import BlastRadius.Proofs.Propagation.Failing
import BlastRadius.Proofs.Propagation.FixedPoint
import BlastRadius.Proofs.Propagation.Idempotence
import BlastRadius.Proofs.Propagation.Ingestion
import BlastRadius.Proofs.Propagation.Monotone
import BlastRadius.Proofs.Propagation.Passes
import BlastRadius.Proofs.Propagation.Radius
import BlastRadius.Proofs.Propagation.Repetition
import BlastRadius.Proofs.Propagation.Resuming
import BlastRadius.Proofs.Propagation.RoundByRound
import BlastRadius.Proofs.Propagation.Rounds
import BlastRadius.Proofs.Propagation.Rules
import BlastRadius.Proofs.Propagation.Searching
import BlastRadius.Proofs.Propagation.SinglePass
import BlastRadius.Proofs.Propagation.Termination
import BlastRadius.Proofs.Propagation.Timing
import BlastRadius.Proofs.Store.Answers
import BlastRadius.Proofs.Store.Attempts
import BlastRadius.Proofs.Store.Backing
import BlastRadius.Proofs.Store.Calm
import BlastRadius.Proofs.Store.Composition
import BlastRadius.Proofs.Store.Contents
import BlastRadius.Proofs.Store.Database
import BlastRadius.Proofs.Store.Dialogues
import BlastRadius.Proofs.Store.Ensuring
import BlastRadius.Proofs.Store.Exhaustion
import BlastRadius.Proofs.Store.Faithful
import BlastRadius.Proofs.Store.Interruption
import BlastRadius.Proofs.Store.Issuing
import BlastRadius.Proofs.Store.Keeping
import BlastRadius.Proofs.Store.Levels
import BlastRadius.Proofs.Store.LoadedGraph
import BlastRadius.Proofs.Store.Loops
import BlastRadius.Proofs.Store.Medium
import BlastRadius.Proofs.Store.Memory
import BlastRadius.Proofs.Store.Reachable
import BlastRadius.Proofs.Store.Reading
import BlastRadius.Proofs.Store.Restored
import BlastRadius.Proofs.Store.Retrying
import BlastRadius.Proofs.Store.Rows
import BlastRadius.Proofs.Store.Runs
import BlastRadius.Proofs.Store.Savepoints
import BlastRadius.Proofs.Store.Scripted
import BlastRadius.Proofs.Store.Sharing
import BlastRadius.Proofs.Store.Statements
import BlastRadius.Proofs.Store.Traces
import BlastRadius.Proofs.Store.Transient
import BlastRadius.Proofs.Store.Undoing
import BlastRadius.Proofs.Store.UniqueKeys
import BlastRadius.Proofs.Text.ByteOrder
import BlastRadius.Propagation.Pass
import BlastRadius.Propagation.Run
import BlastRadius.Propagation.Stage
import BlastRadius.Query.Radius
import BlastRadius.Query.Reset
import BlastRadius.Query.Structure
import BlastRadius.Relation
import BlastRadius.Session.Bench
import BlastRadius.Session.Script
import BlastRadius.Store.Archive
import BlastRadius.Store.Basic
import BlastRadius.Store.Call
import BlastRadius.Store.Database
import BlastRadius.Store.Error
import BlastRadius.Store.Fault
import BlastRadius.Store.Location
import BlastRadius.Store.Memory
import BlastRadius.Store.Program
import BlastRadius.Store.ReadOnly
import BlastRadius.Store.Retry
import BlastRadius.Text.Blank
import BlastRadius.Text.Case
import BlastRadius.Text.Hexadecimal
import BlastRadius.Text.Integer
import BlastRadius.Text.Parts
import BlastRadius.Text.Percent
import BlastRadius.Proofs.Store.Backoff
import BlastRadius.Proofs.Store.Conversations
import BlastRadius.Proofs.Store.OpenLevels
import BlastRadius.Proofs.Store.Faltering
