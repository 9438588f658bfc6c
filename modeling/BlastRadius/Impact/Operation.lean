import BlastRadius.Inventory.Fixture
import BlastRadius.Propagation.Run
import BlastRadius.Query.Radius
import BlastRadius.Query.Reset
import BlastRadius.Query.Structure
import BlastRadius.Store.Basic

/-!
The operations on a graph as data, and the answers to them. Whatever serves clients does it by
performing operations.
-/

namespace BlastRadius

/-- An operation on the graph. -/
inductive Operation where
  | upsertLibrary (library : Artifact) (symbols : List String)
  | upsertSymbol (identity : String)
  | addCalls (caller : String) (callees : List String)
  | upsertComponent (component : Artifact)
  | upsertAsset (asset : Artifact)
  | hostComponent (component asset : Artifact)
  | upsertSystem (name : String) (components : List Artifact)
  | upsertEndpoint (endpoint : EndpointRef)
  | findEndpoint (endpoint : EndpointRef)
  | addNetworkCalls (caller : EndpointRef) (callees : List EndpointRef)
  | addServes (endpoint : EndpointRef) (symbol : String)
  | createBinding (request : BindingRequest)
  | createVulnerability (identity : Option String) (symbol : String)
  | loadFixture (fixture : Fixture)
  | seed (identity : Option String)
  | run (config : PropagationConfig) (identity : Option String)
  | propagate (config : PropagationConfig)
  | runStage (stage : Stage)
  | marked (kind : NodeKind)
  | radius
  | library (library : Artifact)
  | component (component : Artifact)
  | callees (symbol : String)
  | flowchart
  | resetMarks
  | reset
  | resetKinds (kinds : List NodeKind)
  | resetDomain (domain : Domain)
  deriving DecidableEq, Repr

/-- The answer to an operation. -/
inductive Answer where
  /-- The node that was merged or found. -/
  | node (id : NodeId)
  /-- Whether an edge is new. -/
  | added (isNew : Bool)
  /-- How many nodes were marked or cleared. -/
  | count (nodes : Nat)
  | libraryUpsert (answer : LibraryUpsert)
  | link (link : DependencyLink)
  | binding (binding : Binding)
  | registration (registration : Registration)
  | seed (seed : Seed)
  | report (report : PropagationReport)
  | summary (summary : FixtureSummary)
  | nodes (ids : List NodeId)
  | radius (radius : Radius)
  | library (view : LibraryView)
  | component (view : ComponentView)
  | texts (texts : List String)
  | text (text : String)
  | removed (removed : RemovedNodes)
  | done
  deriving DecidableEq, Repr

def Operation.perform : Operation → ImpactProgram Answer
  | upsertLibrary artifact symbols => .libraryUpsert <$> Inventory.upsertLibrary artifact symbols
  | upsertSymbol identity => .node <$> Inventory.upsertSymbol identity
  | addCalls caller called => .link <$> Inventory.addCalls caller called
  | upsertComponent artifact => .node <$> Inventory.upsertComponent artifact
  | upsertAsset artifact => .node <$> Inventory.upsertAsset artifact
  | hostComponent guest host => .added <$> Inventory.hostComponent guest host
  | upsertSystem name parts => .node <$> Inventory.upsertSystem name parts
  | upsertEndpoint endpoint => .node <$> Inventory.upsertEndpoint endpoint
  | findEndpoint endpoint => .node <$> Inventory.findEndpoint endpoint
  | addNetworkCalls caller called => .link <$> Inventory.addNetworkCalls caller called
  | addServes endpoint symbol => .added <$> Inventory.addServes endpoint symbol
  | createBinding request => .binding <$> Inventory.createBinding request
  | createVulnerability identity symbol =>
      .registration <$> Inventory.createVulnerability identity symbol
  | loadFixture fixture => .summary <$> Inventory.loadFixture fixture
  | seed identity => .seed <$> Inventory.seed identity
  | run config identity => .report <$> Propagation.run config identity
  | propagate config => .report <$> Propagation.propagate config
  | runStage stage => .count <$> Propagation.runStage stage
  | marked kind => .nodes <$> Query.marked kind
  | radius => .radius <$> Query.radius
  | library artifact => .library <$> Query.library artifact
  | component artifact => .component <$> Query.component artifact
  | callees symbol => .texts <$> Query.callees symbol
  | flowchart => .text <$> Query.flowchart
  | resetMarks => .count <$> Query.resetMarks
  | reset => (fun _ => .done) <$> Query.reset
  | resetKinds kinds => .removed <$> Query.resetKinds kinds
  | resetDomain domain => .removed <$> Query.resetDomain domain

def Operation.on {σ : Type} (operation : Operation) (store : Store σ) (state : σ) :
    Except ImpactError Answer × σ :=
  operation.perform.run.run store state

end BlastRadius
