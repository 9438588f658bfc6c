import BlastRadius.Proofs.Impact.Traversal
import BlastRadius.Proofs.Store.Exhaustion

/-!
Relations between contents that operations keep. Most calls leave endpoints, bindings and
vulnerabilities as they are. A relation about these is kept by every operation that removes nothing
when it is kept by the other calls and by three blocks: the one that exposes an endpoint, the one
that records a binding and the one that registers a vulnerability.
-/

namespace BlastRadius

/-- A call that has nothing to do with endpoints, bindings and vulnerabilities
and removes nothing. -/
def Call.plain (q : Call) : Bool :=
  !q.touches .endpoint .exposes && !q.touches .binding .specializesInto &&
    !q.touches .vulnerability .threatens

theorem Call.untouched_of_plain {q : Call} (plain : q.plain = true) :
    q.touches .endpoint .exposes = false ∧ q.touches .binding .specializesInto = false ∧
      q.touches .vulnerability .threatens = false := by
  simpa only [Call.plain, Bool.and_eq_true, Bool.not_eq_true', and_assoc] using plain

theorem Call.plain_of_marks {q : Call} (marks : q.marks = true) : q.plain = true := by
  cases q <;> first | rfl | cases marks

theorem Call.plain_of_node {node : Node} (single : node.kind.single = true) :
    (Call.insertNode node).plain = true := by
  cases node <;> first | rfl | cases single

theorem Call.plain_of_edge {e : Edge} (single : e.relation.single = true) :
    (Call.insertEdge e).plain = true := by
  obtain ⟨source, relation, target⟩ := e
  cases relation <;> first | rfl | cases single

/-- The steps of a program keep a relation between contents. -/
abbrev Keeps (R : Contents → Contents → Prop) {ε α : Type} (p : ExceptT ε Program α) :
    Prop :=
  EachStep (CallKeeps Contents.Tried R) (BlockKeeps Contents.Tried R) p

/-- A block, run as a whole, keeps a relation between contents. -/
abbrev KeepsBlock (R : Contents → Contents → Prop) {β : Type} (body : StoreProgram β) :
    Prop :=
  BlockKeeps Contents.Tried R β body.run

/-- A relation that is kept by the steps of operations that remove nothing. -/
structure Kept (R : Contents → Contents → Prop) : Prop where
  refl (c : Contents) : R c c
  trans {a b c : Contents} : R a b → R b c → R a c
  call {q : Call} {c c' : Contents} : q.plain = true → c.Change q c' → R c c'
  exposing {name : String} (owner : NodeId) : name.isEmpty = false →
    KeepsBlock R (Inventory.exposing name owner)
  recording (request : BindingRequest) : KeepsBlock R (Inventory.recording request)
  registering (identity : Option String) (symbol : String) :
    KeepsBlock R (Inventory.registering (Inventory.normalized identity) symbol)

variable {R : Contents → Contents → Prop} {ε α β τ : Type}

theorem keeps_call {q : Call} (change : ∀ {c c'}, c.Change q c' → R c c') :
    Keeps R (StoreProgram.call q) :=
  .call fun _ _ _ tried => change tried.change

section Blocks

variable (refl : ∀ c, R c c)
include refl

theorem callKeeps_read {q : Call} (reads : q.reads = true) : CallKeeps Contents.Tried R q :=
  fun c _ _ tried => tried.change.of_reads reads ▸ refl c

theorem keeps_read {q : Call} (reads : q.reads = true) : Keeps R (StoreProgram.call q) :=
  .call (callKeeps_read refl reads)

theorem keeps_existingDependency (net : CallNetwork) (caller : NodeId) :
    Keeps R (Inventory.existingDependency net caller) :=
  EachStep.composes.existingDependency (keeps_read refl) net caller

variable (trans : ∀ {a b c}, R a b → R b c → R a c)
include trans

theorem keepsBlock {body : StoreProgram β} (keeps : Keeps R body) : KeepsBlock R body :=
  Program.Keeps.block refl trans keeps

theorem keeps_exposing {name : String} {owner : NodeId}
    (node : Keeps R (StoreProgram.call (.insertNode (.endpoint name owner))))
    (edge : ∀ id, Keeps R (StoreProgram.call (.insertEdge ⟨id, .exposes, owner⟩))) :
    KeepsBlock R (Inventory.exposing name owner) :=
  keepsBlock refl trans (EachStep.composes.exposing (keeps_read refl) node edge)

theorem keeps_recording {request : BindingRequest}
    (node : Keeps R (StoreProgram.call (.insertNode .binding)))
    (edge : ∀ id t, Keeps R (StoreProgram.call (.insertEdge ⟨id, .specializesInto, t⟩))) :
    KeepsBlock R (Inventory.recording request) :=
  keepsBlock refl trans (EachStep.composes.recording (keeps_read refl) node edge)

theorem keeps_registering {identity : Option String} {symbol : String}
    (mark : ∀ ids, Keeps R (StoreProgram.call (.markNodes ids)))
    (node : Keeps R (StoreProgram.call (.insertNode (.vulnerability identity))))
    (edge : ∀ id t, Keeps R (StoreProgram.call (.insertEdge ⟨id, .threatens, t⟩))) :
    KeepsBlock R (Inventory.registering identity symbol) :=
  keepsBlock refl trans (EachStep.composes.registering (keeps_read refl) mark node edge)

theorem keeps_providing {artifact : Artifact} {symbols : List String}
    (library : ∀ artifact, Keeps R (StoreProgram.call (.insertNode (.library artifact))))
    (symbol : ∀ identity, Keeps R (StoreProgram.call (.insertNode (.symbol identity))))
    (edge : ∀ id t, Keeps R (StoreProgram.call (.insertEdge ⟨id, .provides, t⟩))) :
    KeepsBlock R (Inventory.providing artifact symbols) :=
  keepsBlock refl trans (EachStep.composes.providing (keeps_read refl) library symbol edge)

theorem keeps_linking {net : CallNetwork} {caller : NodeId} {callees : List NodeId}
    (node : Keeps R (StoreProgram.call (.insertNode net.record)))
    (own : ∀ id, Keeps R (StoreProgram.call (.insertEdge ⟨id, .caller, caller⟩)))
    (edge : ∀ id t, Keeps R (StoreProgram.call (.insertEdge ⟨id, .callees, t⟩))) :
    KeepsBlock R (Inventory.linking net caller callees) :=
  keepsBlock refl trans (EachStep.composes.linking (keeps_read refl) node own edge)

theorem keeps_seeding {symbol : NodeId} (clear : Keeps R (StoreProgram.call .clearMarks))
    (mark : ∀ ids, Keeps R (StoreProgram.call (.markNodes ids))) :
    KeepsBlock R (Inventory.seeding symbol) :=
  keepsBlock refl trans (EachStep.composes.seeding clear mark)

theorem keeps_removing {kinds : List NodeKind}
    (removal : ∀ kind ∈ kinds, Keeps R (StoreProgram.call (.removeKind kind))) :
    KeepsBlock R (Query.removing kinds) :=
  keepsBlock refl trans (EachStep.composes.removing removal)

end Blocks

theorem Kept.plain (kept : Kept R) {q : Call} (plain : q.plain = true) :
    Keeps R (StoreProgram.call q) :=
  keeps_call fun change => kept.call plain change

theorem Kept.allows (kept : Kept R) :
    AllowsOperations (CallKeeps Contents.Tried R) (BlockKeeps Contents.Tried R) where
  call marks _ _ _ tried := kept.call (Call.plain_of_marks marks) tried.change
  node single _ _ _ tried := kept.call (Call.plain_of_node single) tried.change
  edge single _ _ _ tried := kept.call (Call.plain_of_edge single) tried.change
  seeding symbol := keeps_seeding kept.refl kept.trans (kept.plain rfl) fun _ => kept.plain rfl
  providing artifact symbols := keeps_providing kept.refl kept.trans (fun _ => kept.plain rfl)
    (fun _ => kept.plain rfl) fun _ _ => kept.plain rfl
  linking net caller _ _ := keeps_linking kept.refl kept.trans
    (kept.plain (by cases net <;> rfl)) (fun _ => kept.plain rfl) fun _ _ => kept.plain rfl
  exposing := kept.exposing
  recording := kept.recording
  registering := kept.registering

theorem Kept.upsertEndpoint (kept : Kept R) (endpoint : EndpointRef) :
    Keeps R (Inventory.upsertEndpoint endpoint) :=
  kept.allows.upsertEndpoint endpoint

/-- An operation keeps what its steps keep, the removals among them included. -/
theorem Operation.keeps (kept : Kept R) (operation : Operation)
    (removal : ∀ kind ∈ operation.removed, Keeps R (StoreProgram.call (.removeKind kind)))
    (reset : operation = .reset → Keeps R (StoreProgram.call .reset)) :
    Keeps R operation.perform :=
  kept.allows.perform operation (keeps_removing kept.refl kept.trans removal) fun same =>
    (reset same).1

end BlastRadius
