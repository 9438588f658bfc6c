import BlastRadius.Impact.Program
import BlastRadius.Node.Codec

/-!
The blast radius of a propagation: every marked node with its label, by kind.
-/

namespace BlastRadius

/-- A marked node and its label. -/
structure MarkedNode where
  id : NodeId
  label : String
  deriving DecidableEq, Repr

def MarkedNode.toJson (node : MarkedNode) : Json :=
  .obj [("id", node.id.toJson), ("label", .str node.label)]

/-- The marked nodes of a kind. -/
structure KindGroup where
  kind : NodeKind
  nodes : List MarkedNode
  deriving DecidableEq, Repr

def KindGroup.toJson (group : KindGroup) : Json :=
  .obj [("kind", group.kind.toJson), ("nodes", .arr (group.nodes.map MarkedNode.toJson))]

/-- The marked nodes by kind, in layer order. Kinds without a marked node are left out. -/
structure Radius where
  groups : List KindGroup
  deriving DecidableEq, Repr

namespace Radius

def total (radius : Radius) : Nat :=
  radius.groups.foldr (fun group total => group.nodes.length + total) 0

/-- How many nodes of a kind are marked. -/
def count (radius : Radius) (kind : NodeKind) : Nat :=
  match radius.groups.find? fun group => group.kind == kind with
  | some group => group.nodes.length
  | none => 0

def toJson (radius : Radius) : Json :=
  .obj [("total", .num radius.total), ("groups", .arr (radius.groups.map KindGroup.toJson))]

end Radius

namespace Query

open StoreProgram (call)

def labelled (id : NodeId) : StoreProgram MarkedNode := do
  let node ← call (.getNode id)
  return ⟨id, node.label⟩

/-- The marked nodes of a kind with their labels. -/
def markedGroup (kind : NodeKind) : StoreProgram KindGroup := do
  let ids ← call (.markedNodes kind)
  let nodes ← StoreProgram.each labelled ids
  return ⟨kind, nodes⟩

def radius : ImpactProgram Radius := do
  let groups ← ImpactProgram.ofStore (StoreProgram.each markedGroup NodeKind.all)
  return ⟨groups.filter fun group => !group.nodes.isEmpty⟩

def marked (kind : NodeKind) : ImpactProgram (List NodeId) :=
  ImpactProgram.call (.markedNodes kind)

end Query

end BlastRadius
