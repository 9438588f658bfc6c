import BlastRadius.Impact.Operation
import BlastRadius.Proofs.Store.Composition
import BlastRadius.Proofs.Store.Faithful

/-!
The blocks of operations. Everything that takes more than one call and must happen as a whole is one
of them. What holds of their calls holds of them, if it is inherited by what is built from programs.
-/

namespace BlastRadius

namespace Inventory

open StoreProgram (call)

/-- The block that merges a library, its symbols and the edges between them. -/
def providing (artifact : Artifact) (symbols : List String) : StoreProgram LibraryUpsert := do
  let id ← mergedId (.library artifact)
  let provided ← StoreProgram.each (provide id) symbols
  return ⟨id, provided⟩

/-- The block that links the record of a caller, inserted if it has none, to callees. -/
def linking (net : CallNetwork) (caller : NodeId) (callees : List NodeId) :
    StoreProgram NodeId := do
  let dependency ← ensureDependency net caller
  let _ ← StoreProgram.each (fun callee =>
    call (.insertEdge ⟨dependency, .callees, callee⟩)) callees
  return dependency

/-- The block that merges an endpoint and the edge to its component. -/
def exposing (name : String) (owner : NodeId) : StoreProgram NodeId := do
  let (id, _) ← StoreProgram.mergeNode (.endpoint name owner)
  let _ ← call (.insertEdge ⟨id, .exposes, owner⟩)
  return id

/-- The block that finds or inserts the binding for a request. -/
def recording (request : BindingRequest) : StoreProgram Binding := do
  let targets ← resolveTargets request
  match ← exactBinding targets with
  | some id => return ⟨id, false, targets, request⟩
  | none =>
      let id ← insertBinding targets
      return ⟨id, true, targets, request⟩

/-- The block that registers a vulnerability, unless its symbol is missing. -/
def registering (identity : Option String) (symbol : String) :
    StoreProgram (Option Registration) := do
  match ← findVulnerability fun existing => identityMatches existing identity with
  | some id => return some (.existing id)
  | none =>
      match ← call (.findNode (.symbol symbol)) with
      | some target => some <$> insertVulnerability identity target
      | none => return none

/-- The block that leaves a mark on a symbol alone. -/
def seeding (symbol : NodeId) : StoreProgram Nat := do
  let cleared ← call .clearMarks
  let _ ← call (.markNodes [symbol])
  return cleared

end Inventory

/-- The block that removes the nodes of some kinds. -/
def Query.removing (kinds : List NodeKind) : StoreProgram (List (NodeKind × Nat)) :=
  StoreProgram.each (fun kind => do
    let count ← StoreProgram.call (.removeKind kind)
    return (kind, count)) kinds

namespace StoreProgram.Composes

variable {P : (α : Type) → StoreProgram α → Prop} (composes : Composes P)
  (reads : ∀ {q : Call}, q.reads = true → P _ (call q))
include composes

theorem seeding {symbol : NodeId} (clear : P _ (call .clearMarks))
    (mark : ∀ ids, P _ (call (.markNodes ids))) : P _ (Inventory.seeding symbol) := by
  apply composes.bind clear
  intro cleared
  exact composes.bind (mark [symbol]) fun _ => composes.pure cleared

theorem removing {kinds : List NodeKind}
    (removal : ∀ kind ∈ kinds, P _ (call (.removeKind kind))) :
    P _ (Query.removing kinds) := by
  apply composes.each
  intro kind among
  exact composes.bind (removal kind among) fun count => composes.pure (kind, count)

include reads

theorem mergedId {node : Node} (insertion : P _ (call (.insertNode node))) :
    P _ (Inventory.mergedId node) :=
  composes.bind (composes.merge (fun _ => reads rfl) insertion) fun merged => composes.pure merged.1

theorem findVulnerability (p : Option String → Bool) : P _ (Inventory.findVulnerability p) := by
  apply composes.bind (reads rfl)
  intro ids
  apply composes.first?
  intro id
  apply composes.bind (reads rfl)
  intro node
  cases node <;> exact composes.pure _

theorem existingDependency (net : CallNetwork) (caller : NodeId) :
    P _ (Inventory.existingDependency net caller) := by
  apply composes.bind (reads rfl)
  intro candidates
  apply composes.first?
  intro candidate
  exact composes.bind (reads rfl) fun kind => composes.pure (kind == net.record.kind)

theorem providing {artifact : Artifact} {symbols : List String}
    (library : ∀ artifact, P _ (call (.insertNode (.library artifact))))
    (symbol : ∀ identity, P _ (call (.insertNode (.symbol identity))))
    (edge : ∀ id t, P _ (call (.insertEdge ⟨id, .provides, t⟩))) :
    P _ (Inventory.providing artifact symbols) := by
  apply composes.bind (composes.mergedId reads (library artifact))
  intro owner
  refine composes.bind (composes.each fun identity _ => ?_) fun provided => composes.pure _
  apply composes.bind (composes.mergedId reads (symbol identity))
  intro id
  exact composes.bind (edge owner id) fun _ => composes.pure id

theorem linking {net : CallNetwork} {caller : NodeId} {callees : List NodeId}
    (node : P _ (call (.insertNode net.record)))
    (own : ∀ id, P _ (call (.insertEdge ⟨id, .caller, caller⟩)))
    (edge : ∀ id t, P _ (call (.insertEdge ⟨id, .callees, t⟩))) :
    P _ (Inventory.linking net caller callees) := by
  refine composes.bind (composes.bind (composes.existingDependency reads net caller) ?_) ?_
  · rintro (_ | record)
    · apply composes.bind node
      intro record
      exact composes.bind (own record) fun _ => composes.pure record
    · exact composes.pure record
  · intro record
    exact composes.bind (composes.each fun callee _ => edge record callee) fun _ =>
      composes.pure record

theorem exposing {name : String} {owner : NodeId}
    (node : P _ (call (.insertNode (.endpoint name owner))))
    (edge : ∀ id, P _ (call (.insertEdge ⟨id, .exposes, owner⟩))) :
    P _ (Inventory.exposing name owner) := by
  apply composes.bind (composes.merge (fun _ => reads rfl) node)
  intro merged
  exact composes.bind (edge merged.1) fun _ => composes.pure merged.1

theorem resolveTargets (request : BindingRequest) : P _ (Inventory.resolveTargets request) := by
  refine composes.bind (composes.gather fun key => ?_) fun _ => composes.pure _
  exact composes.bind (reads rfl) fun _ => composes.pure _

theorem exactBinding (targets : List NodeId) : P _ (Inventory.exactBinding targets) := by
  have search (candidates : List NodeId) : P _ (StoreProgram.first? (fun candidate => do
      let existing ← call (.targets candidate .specializesInto)
      return NodeId.ascending existing == targets) candidates) :=
    composes.first? fun _ => composes.bind (reads rfl) fun _ => composes.pure _
  cases targets with
  | nil => exact composes.bind (reads (q := .nodesOfKind .binding) rfl) search
  | cons first rest =>
      exact composes.bind (reads (q := .sources first .specializesInto) rfl) search

theorem recording {request : BindingRequest} (node : P _ (call (.insertNode .binding)))
    (edge : ∀ id t, P _ (call (.insertEdge ⟨id, .specializesInto, t⟩))) :
    P _ (Inventory.recording request) := by
  apply composes.bind (composes.resolveTargets reads request)
  intro targets
  apply composes.bind (composes.exactBinding reads targets)
  rintro (_ | found)
  · refine composes.bind (composes.bind node fun id => ?_) fun _ => composes.pure _
    exact composes.bind (composes.each fun t _ => edge id t) fun _ => composes.pure id
  · exact composes.pure _

theorem registering {identity : Option String} {symbol : String}
    (mark : ∀ ids, P _ (call (.markNodes ids)))
    (node : P _ (call (.insertNode (.vulnerability identity))))
    (edge : ∀ id t, P _ (call (.insertEdge ⟨id, .threatens, t⟩))) :
    P _ (Inventory.registering identity symbol) := by
  apply composes.bind (composes.findVulnerability reads _)
  rintro (_ | existing)
  · apply composes.bind (reads rfl)
    rintro (_ | target)
    · exact composes.pure none
    · refine composes.map some (composes.bind (mark [target]) fun _ => ?_)
      apply composes.bind node
      intro id
      exact composes.bind (edge id target) fun _ => composes.pure _
  · exact composes.pure _

end StoreProgram.Composes

end BlastRadius
