import BlastRadius.Graph.Basic
import BlastRadius.Store.Error

/-!
What a client may ask of a store. The calls are data, so that a store, a fault or an interleaving
of clients can be described by what it does with each call.
-/

namespace BlastRadius

/-- A call on the nodes, edges and marks of a store. -/
inductive Call where
  /-- Inserts a node whose key is not taken. -/
  | insertNode (node : Node)
  | getNode (id : NodeId)
  | nodeKind (id : NodeId)
  | findNode (key : NodeKey)
  /-- The nodes of a kind, ascending. -/
  | nodesOfKind (kind : NodeKind)
  /-- Inserts an edge and says whether it is new. -/
  | insertEdge (edge : Edge)
  /-- The nodes that a relation leads to from a node, ascending. -/
  | targets (id : NodeId) (relation : Relation)
  /-- The nodes from which a relation leads to a node, ascending. -/
  | sources (id : NodeId) (relation : Relation)
  | isMarked (id : NodeId)
  /-- The marked nodes of a kind, ascending. -/
  | markedNodes (kind : NodeKind)
  /-- Marks nodes, all or none, and says how many were not marked before. -/
  | markNodes (ids : List NodeId)
  /-- Clears every mark and says how many there were. -/
  | clearMarks
  | loadGraph
  /-- Removes the nodes of a kind with their edges and says how many there were. -/
  | removeKind (kind : NodeKind)
  | reset
  deriving DecidableEq, Repr

/-- The type of the answer to a call. -/
@[reducible] def Call.Reply : Call → Type
  | insertNode _ => NodeId
  | getNode _ => Node
  | nodeKind _ => NodeKind
  | findNode _ => Option NodeId
  | nodesOfKind _ => List NodeId
  | insertEdge _ => Bool
  | targets _ _ => List NodeId
  | sources _ _ => List NodeId
  | isMarked _ => Bool
  | markedNodes _ => List NodeId
  | markNodes _ => Nat
  | clearMarks => Nat
  | loadGraph => DependencyGraph
  | removeKind _ => Nat
  | reset => Unit

/-- The opening and closing of transaction levels. -/
inductive Control where
  | begin
  /-- Closes the innermost level and keeps its work. -/
  | commit
  /-- Closes the innermost level and undoes its work. -/
  | rollback
  deriving DecidableEq, Repr

end BlastRadius
