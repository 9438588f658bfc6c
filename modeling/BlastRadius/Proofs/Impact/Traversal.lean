import BlastRadius.Proofs.Propagation.Marking

/-!
The steps of which operations are made: calls that read or change marks, calls for nodes and edges
of the kinds that need no block, the blocks, and removals.
-/

namespace BlastRadius

/-- The kinds of node that operations merge outside blocks. -/
def NodeKind.single : NodeKind → Bool
  | symbol | component | asset | system => true
  | _ => false

/-- The relations of which operations insert edges outside blocks. -/
def Relation.single : Relation → Bool
  | serves | hostedBy | composedOf => true
  | _ => false

/-- The kinds of node that an operation removes. -/
def Operation.removed : Operation → List NodeKind
  | reset => NodeKind.all
  | resetKinds kinds => Query.withEndpoints kinds
  | resetDomain domain => Query.withEndpoints domain.kinds
  | _ => []

/-- What is said of the steps of programs is said of those of operations that remove nothing. -/
structure AllowsOperations (C : Call → Prop)
    (B : (β : Type) → Program (Except StoreError β) → Prop) :
      Prop extends AllowsMarks C B where
  node {node : Node} : node.kind.single = true → C (.insertNode node)
  edge {e : Edge} : e.relation.single = true → C (.insertEdge e)
  providing (artifact : Artifact) (symbols : List String) :
    B _ (Inventory.providing artifact symbols).run
  linking (net : CallNetwork) (caller : NodeId) {callees : List NodeId} : callees ≠ [] →
    B _ (Inventory.linking net caller callees).run
  exposing {name : String} (owner : NodeId) : name.isEmpty = false →
    B _ (Inventory.exposing name owner).run
  recording (request : BindingRequest) : B _ (Inventory.recording request).run
  registering (identity : Option String) (symbol : String) :
    B _ (Inventory.registering (Inventory.normalized identity) symbol).run

namespace AllowsOperations

open Inventory Query

variable {C : Call → Prop} {B : (β : Type) → Program (Except StoreError β) → Prop}
  (allows : AllowsOperations C B)
include allows

theorem merged {node : Node} (single : node.kind.single = true) (holds : Bool)
    (reason : String) : EachStep C B (do
      ImpactProgram.require holds reason
      ImpactProgram.ofStore (Inventory.mergedId node)) := by
  have look (key : NodeKey) : EachStep C B (StoreProgram.call (.findNode key)) := allows.marking rfl
  refine .bind (.require _ _) fun _ => EachStep.ofStore ?_
  exact (EachStep.mergeNode look (.call (allows.node single))).bind fun _ => .pure _

theorem insertEdge {e : Edge} (single : e.relation.single = true) :
    EachStep C B (ImpactProgram.ofStore (StoreProgram.call (.insertEdge e))) :=
  (EachStep.call (allows.edge single)).ofStore

theorem upsertLibrary (artifact : Artifact) (symbols : List String) :
    EachStep C B (Inventory.upsertLibrary artifact symbols) :=
  .bind (.require _ _) fun _ => .bind (.require _ _) fun _ =>
    (EachStep.atomically (allows.providing artifact symbols)).ofStore

theorem hostComponent (guest host : Artifact) : EachStep C B (Inventory.hostComponent guest host) :=
  .bind (allows.findAs _ _) fun _ => .bind (allows.findAs _ _) fun _ => allows.insertEdge rfl

theorem upsertSystem (name : String) (parts : List Artifact) :
    EachStep C B (Inventory.upsertSystem name parts) := by
  refine .bind (.require _ _) fun _ => .bind (EachStep.ofStore ?_) fun system => ?_
  · have look (key : NodeKey) : EachStep C B (StoreProgram.call (.findNode key)) :=
      allows.marking rfl
    exact (EachStep.mergeNode look (.call (allows.node rfl))).bind fun _ => .pure _
  · refine .bind (.collect fun part => ?_) fun _ => .bind (.ofResult _) fun _ => .pure _
    exact .bind (allows.findAs _ _) fun _ => allows.insertEdge rfl

theorem upsertEndpoint (endpoint : EndpointRef) :
    EachStep C B (Inventory.upsertEndpoint endpoint) :=
  .requiring fun named => .bind (allows.findAs _ _) fun owner =>
    (EachStep.atomically (allows.exposing owner (Bool.not_eq_true' _ ▸ named))).ofStore

theorem findEndpoint (endpoint : EndpointRef) : EachStep C B (Inventory.findEndpoint endpoint) :=
  .bind (allows.findAs _ _) fun _ => allows.findAs _ _

theorem addServes (endpoint : EndpointRef) (symbol : String) :
    EachStep C B (Inventory.addServes endpoint symbol) :=
  .bind (allows.findEndpoint endpoint) fun _ =>
    .bind (allows.findAs _ _) fun _ => allows.insertEdge rfl

theorem linkOutcomes (net : CallNetwork) (caller : NodeId) (outcomes : Outcomes NodeId) :
    EachStep C B (Inventory.linkOutcomes net caller outcomes) := by
  refine .bind (EachStep.ofStore ?_) fun _ => .bind (.ofResult _) fun _ => .pure _
  rw [Inventory.linkDependency]
  split
  · exact .pure _
  · rename_i some
    have linked : NodeId.ascending outcomes.successes ≠ [] := by
      obtain ⟨callee, mem⟩ := List.exists_mem_of_ne_nil _ fun none =>
        some (List.isEmpty_iff.mpr none)
      exact List.ne_nil_of_mem (NodeId.mem_ascending.mpr mem)
    exact (EachStep.atomically (allows.linking net caller linked)).bind fun _ => .pure _

theorem addCalls (caller : String) (called : List String) :
    EachStep C B (Inventory.addCalls caller called) :=
  .bind (allows.findAs _ _) fun id =>
    .bind (.collect fun _ => allows.findAs _ _) fun outcomes =>
      allows.linkOutcomes .code id outcomes

theorem addNetworkCalls (caller : EndpointRef) (called : List EndpointRef) :
    EachStep C B (Inventory.addNetworkCalls caller called) :=
  .bind (allows.upsertEndpoint caller) fun id =>
    .bind (.collect fun callee => allows.upsertEndpoint callee) fun outcomes =>
      allows.linkOutcomes .network id outcomes

theorem createBinding (request : BindingRequest) : EachStep C B (Inventory.createBinding request) :=
  (EachStep.atomically (allows.recording request)).ofStore

theorem createVulnerability (identity : Option String) (symbol : String) :
    EachStep C B (Inventory.createVulnerability identity symbol) := by
  refine .bind (EachStep.atomically (allows.registering identity symbol)).ofStore
    fun registered => ?_
  cases registered with
  | some registration => exact .pure registration
  | none => exact .throw _

theorem loadFixture (fixture : Fixture) : EachStep C B (Inventory.loadFixture fixture) := by
  refine .bind ?_ fun _ => .bind (allows.marking rfl).ofStore fun _ => .pure _
  refine .bind (.forEach fun _ => allows.merged rfl _ _) fun _ => ?_
  refine .bind (.forEach fun entry => allows.upsertLibrary entry.library entry.symbols) fun _ => ?_
  refine .bind (.forEach fun entry => allows.addCalls entry.caller entry.callees) fun _ => ?_
  refine .bind (.forEach fun _ => allows.merged rfl _ _) fun _ => ?_
  refine .bind (.forEach fun _ => allows.merged rfl _ _) fun _ => ?_
  refine .bind (.forEach fun entry => allows.hostComponent entry.component entry.asset) fun _ => ?_
  refine .bind (.forEach fun endpoint => allows.upsertEndpoint endpoint) fun _ => ?_
  refine .bind (.forEach fun entry => allows.addServes entry.endpoint entry.symbol) fun _ => ?_
  refine .bind (.forEach fun entry => allows.addNetworkCalls entry.caller entry.callees) fun _ => ?_
  refine .bind (.forEach fun request => allows.createBinding request) fun _ => ?_
  refine .bind (.forEach fun entry => allows.upsertSystem entry.name entry.components) fun _ => ?_
  exact .forEach fun entry => allows.createVulnerability entry.identity entry.symbol

/-- What is said of the steps is said of every operation, the removals that it makes included. -/
theorem perform (operation : Operation)
    (removing : B _ (Query.removing operation.removed).run)
    (reset : operation = .reset → C .reset) : EachStep C B operation.perform := by
  have removal (kinds : List NodeKind)
      (removed : B _ (Query.removing (Query.withEndpoints kinds)).run) :
      EachStep C B (Query.resetKinds kinds) :=
    .bind (EachStep.atomically removed).ofStore fun _ => .pure _
  cases operation with
  | upsertLibrary artifact symbols => exact (allows.upsertLibrary artifact symbols).map _
  | upsertSymbol identity => exact (allows.merged rfl _ _).map _
  | addCalls caller called => exact (allows.addCalls caller called).map _
  | upsertComponent artifact => exact (allows.merged rfl _ _).map _
  | upsertAsset artifact => exact (allows.merged rfl _ _).map _
  | hostComponent guest host => exact (allows.hostComponent guest host).map _
  | upsertSystem name parts => exact (allows.upsertSystem name parts).map _
  | upsertEndpoint endpoint => exact (allows.upsertEndpoint endpoint).map _
  | findEndpoint endpoint => exact .asking allows.read rfl
  | addNetworkCalls caller called => exact (allows.addNetworkCalls caller called).map _
  | addServes endpoint symbol => exact (allows.addServes endpoint symbol).map _
  | createBinding request => exact (allows.createBinding request).map _
  | createVulnerability identity symbol => exact (allows.createVulnerability identity symbol).map _
  | loadFixture fixture => exact (allows.loadFixture fixture).map _
  | seed identity => exact (allows.seed identity).map _
  | run config identity => exact (allows.run config identity).map _
  | propagate config => exact (allows.propagate config).map _
  | runStage stage => exact (allows.execute _ stage).map _
  | marked kind => exact .asking allows.read rfl
  | radius => exact .asking allows.read rfl
  | library artifact => exact .asking allows.read rfl
  | component artifact => exact .asking allows.read rfl
  | callees symbol => exact .asking allows.read rfl
  | flowchart => exact .asking allows.read rfl
  | resetMarks => exact (allows.marking rfl).ofStore.map _
  | reset => exact (EachStep.call (reset rfl)).ofStore.map _
  | resetKinds kinds => exact (removal kinds removing).map _
  | resetDomain domain => exact (removal domain.kinds removing).map _

end AllowsOperations

end BlastRadius
