import BlastRadius.Impact.Operation
import BlastRadius.Proofs.Graph.Valid
import BlastRadius.Proofs.Parity.Renaming

/-!
When two answers to an operation agree: in everything but the identifiers of nodes, which
correspond, and the order of what is listed by identifier.
-/

namespace BlastRadius

variable (f : Renaming)

/-- Lists of nodes in the orders of their identifiers. -/
def AgreeLists (a b : List NodeId) : Prop := b.Perm (a.map f)

/-- Links of the same caller by the same record to the same callees. -/
structure DependencyLink.Agree (a b : DependencyLink) : Prop where
  caller : b.caller = f a.caller
  dependency : b.dependency = a.dependency.map f
  callees : AgreeLists f a.callees b.callees

/-- Bindings about the same nodes. A new one is the same node; where several old ones are about the
same nodes, either answer may name any of them. -/
structure Binding.Agree (a b : Binding) : Prop where
  created : b.created = a.created
  id : a.created = true → b.id = f a.id
  targets : AgreeLists f a.targets b.targets
  request : b.request = a.request

/-- Registrations with the same status. A new vulnerability is the same node; where several old ones
match, either answer may name any of them. -/
def Registration.Agree : Registration → Registration → Prop
  | created v symbol, created v' symbol' => v' = f v ∧ symbol' = f symbol
  | existing _, existing _ => True
  | _, _ => False

structure PropagationReport.Agree (a b : PropagationReport) : Prop where
  vulnerability : b.vulnerability = a.vulnerability.map f
  seed : b.seed = a.seed.map f
  stages : b.stages = a.stages
  rounds : b.rounds = a.rounds
  totalMarked : b.totalMarked = a.totalMarked

/-- Groups of the same marked nodes under the same labels. -/
structure KindGroup.Agree (a b : KindGroup) : Prop where
  kind : b.kind = a.kind
  nodes : b.nodes.Perm (a.nodes.map fun node => ⟨f node.id, node.label⟩)

/-- Graphs that are equal up to the renaming, whatever else they keep. -/
def DependencyGraph.Agree (a b : DependencyGraph) : Prop :=
  a.Valid ∧ b.Valid ∧ b.contents = a.contents.rename f

def Answer.Agree : Answer → Answer → Prop
  | .node id, .node id' => id' = f id
  | .added isNew, .added isNew' => isNew' = isNew
  | .count n, .count n' => n' = n
  | .libraryUpsert a, .libraryUpsert b => b.library = f a.library ∧ b.symbols = a.symbols.map f
  | .link a, .link b => a.Agree f b
  | .binding a, .binding b => a.Agree f b
  | .registration a, .registration b => a.Agree f b
  | .seed a, .seed b => b = ⟨f a.vulnerability, f a.symbol, a.cleared⟩
  | .report a, .report b => a.Agree f b
  | .summary a, .summary b => b = a
  | .nodes ids, .nodes ids' => AgreeLists f ids ids'
  | .radius a, .radius b => List.Forall₂ (KindGroup.Agree f) a.groups b.groups
  | .library a, .library b => b = { a with id := f a.id }
  | .component a, .component b => b = { a with id := f a.id }
  | .texts a, .texts b => b = a
  | .text a, .text b => ∃ g g', g.Agree f g' ∧ a = Mermaid.render g ∧ b = Mermaid.render g'
  | .removed a, .removed b => b = a
  | .done, .done => True
  | _, _ => False

/-- Equal errors, but for the identifier of a vulnerability that threatens nothing any more. -/
def ImpactError.Agree (a b : ImpactError) : Prop :=
  b = a ∨ ∃ v : NodeId, a = .invalid s!"vulnerability {v} threatens no symbol" ∧
    b = .invalid s!"vulnerability {f v} threatens no symbol"

/-- Two results are both answers that agree or both errors that agree. -/
def ResultsAgree : Except ImpactError Answer → Except ImpactError Answer → Prop
  | .ok a, .ok b => a.Agree f b
  | .error a, .error b => a.Agree f b
  | _, _ => False

end BlastRadius
