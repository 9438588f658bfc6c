import BlastRadius.Graph.Error
import BlastRadius.Node.Key

/-!
The dependency graph. Nodes with a key are unique, edges obey the schema and occur once, and a
mark is kept beside each node. Nodes are listed by ascending identifier and edges by source, then
relation, then target.

Identifiers are reused: a new node takes the identifier freed last, or else the next one that was
never used.
-/

namespace BlastRadius

/-- A node and its mark. -/
structure NodeRecord where
  node : Node
  marked : Bool := false
  deriving DecidableEq, Repr

/-- A typed, directed edge. -/
structure Edge where
  source : NodeId
  relation : Relation
  target : NodeId
  deriving DecidableEq, Repr

/-- The order in which edges are listed. -/
def Edge.before (a b : Edge) : Bool :=
  decide (a.source < b.source) ||
    (a.source == b.source &&
      (decide (a.relation.rank < b.relation.rank) ||
        (a.relation == b.relation && decide (a.target < b.target))))

/-- A graph of nodes with marks. -/
structure DependencyGraph where
  /-- The nodes, by ascending identifier. -/
  nodes : List (NodeId × NodeRecord) := []
  /-- The edges, ascending and without repetition. -/
  edges : List Edge := []
  /-- The node of each canonical key. -/
  index : List (String × NodeId) := []
  /-- The identifiers that are free again, the one freed last first. -/
  free : List NodeId := []
  /-- The least number above every identifier that was ever used. -/
  next : Nat := 0
  deriving DecidableEq, Repr

namespace DependencyGraph

def empty : DependencyGraph := {}

/-- Inserts a record before the first one with a greater or equal identifier. -/
def placed (id : NodeId) (record : NodeRecord) :
    List (NodeId × NodeRecord) → List (NodeId × NodeRecord)
  | [] => [(id, record)]
  | entry :: rest =>
      if entry.1 < id then entry :: placed id record rest else (id, record) :: entry :: rest

def record? (g : DependencyGraph) (id : NodeId) : Option NodeRecord :=
  g.nodes.lookup id

/-- Whether there is a node with this identifier. -/
def contains (g : DependencyGraph) (id : NodeId) : Bool :=
  (g.record? id).isSome

/-- The record of a node that should exist. -/
def record (g : DependencyGraph) (id : NodeId) : Except GraphError NodeRecord :=
  match g.record? id with
  | some found => .ok found
  | none => .error (.nodeNotFound id)

/-- A node that should exist. -/
def node (g : DependencyGraph) (id : NodeId) : Except GraphError Node :=
  NodeRecord.node <$> g.record id

def find? (g : DependencyGraph) (key : NodeKey) : Option NodeId :=
  g.index.lookup key.canonical

/-- The identifiers of the nodes whose record satisfies `p`, ascending. -/
def idsWhere (g : DependencyGraph) (p : NodeRecord → Bool) : List NodeId :=
  (g.nodes.filter fun entry => p entry.2).map (·.1)

/-- The nodes of a kind, ascending. -/
def nodesOfKind (g : DependencyGraph) (kind : NodeKind) : List NodeId :=
  g.idsWhere fun record => record.node.kind == kind

/-- Enters the key of a node into the index, unless another node has it. -/
def enterKey (g : DependencyGraph) (id : NodeId) (node : Node) :
    Except GraphError (List (String × NodeId)) :=
  match node.key? with
  | none => .ok g.index
  | some key =>
      if (g.index.lookup key.canonical).isSome then .error (.duplicateKey key.canonical)
      else .ok ((key.canonical, id) :: g.index)

/-- The identifier that the next new node takes. -/
def nextId (g : DependencyGraph) : NodeId :=
  g.free.headD (NodeId.ofNat g.next)

/-- Adds an unmarked node. A node whose key is taken is refused. -/
def addNode (g : DependencyGraph) (node : Node) :
    Except GraphError (NodeId × DependencyGraph) := do
  let id := g.nextId
  -- A node that is refused has not taken its identifier yet.
  let index ← g.enterKey id node
  let nodes := placed id { node := node } g.nodes
  match g.free with
  | [] => return (id, { g with nodes := nodes, index := index, next := g.next + 1 })
  | _ :: free => return (id, { g with nodes := nodes, index := index, free := free })

/-- Removes the nodes of a kind, their edges and their keys, and says how many there were. Their
identifiers are freed in ascending order. -/
def removeKind (g : DependencyGraph) (kind : NodeKind) : Nat × DependencyGraph :=
  let ids := g.nodesOfKind kind
  let keys := g.nodes.filterMap fun entry =>
    if entry.2.node.kind == kind then entry.2.node.key?.map NodeKey.canonical else none
  (ids.length,
    { g with
      nodes := g.nodes.filter fun entry => !(entry.2.node.kind == kind)
      edges := g.edges.filter fun e => !ids.contains e.source && !ids.contains e.target
      index := g.index.filter fun entry => !keys.contains entry.1
      free := ids.reverse ++ g.free })

/-- Inserts an edge before the first one that does not come before it. -/
def linked (e : Edge) : List Edge → List Edge
  | [] => [e]
  | f :: rest => if f.before e then f :: linked e rest else e :: f :: rest

/-- Adds an edge that the schema permits between existing nodes, and says whether it is new. -/
def addEdge (g : DependencyGraph) (e : Edge) : Except GraphError (Bool × DependencyGraph) := do
  let source ← g.node e.source
  let target ← g.node e.target
  e.relation.check source.kind target.kind
  if g.edges.contains e then return (false, g)
  else return (true, { g with edges := linked e g.edges })

/-- The nodes that a relation leads to from `id`, ascending. -/
def targets (g : DependencyGraph) (id : NodeId) (relation : Relation) :
    Except GraphError (List NodeId) := do
  let _ ← g.record id
  return (g.edges.filter fun e => e.source == id && e.relation == relation).map (·.target)

/-- The nodes from which a relation leads to `id`, ascending. -/
def sources (g : DependencyGraph) (id : NodeId) (relation : Relation) :
    Except GraphError (List NodeId) := do
  let _ ← g.record id
  return (g.edges.filter fun e => e.target == id && e.relation == relation).map (·.source)

def isMarked (g : DependencyGraph) (id : NodeId) : Except GraphError Bool :=
  NodeRecord.marked <$> g.record id

/-- The marked nodes of a kind, ascending. -/
def markedOfKind (g : DependencyGraph) (kind : NodeKind) : List NodeId :=
  g.idsWhere fun record => record.marked && record.node.kind == kind

/-- Marks the listed nodes and says how many were not marked before. If one of them does not
exist, nothing is marked. -/
def setMarks (g : DependencyGraph) (ids : List NodeId) :
    Except GraphError (Nat × DependencyGraph) :=
  match ids.find? fun id => !g.contains id with
  | some missing => .error (.nodeNotFound missing)
  | none =>
      .ok ((g.nodes.filter fun entry => !entry.2.marked && ids.contains entry.1).length,
        { g with
          nodes := g.nodes.map fun entry =>
            if ids.contains entry.1 then (entry.1, { entry.2 with marked := true }) else entry })

/-- Clears every mark and says how many there were. -/
def clearMarks (g : DependencyGraph) : Nat × DependencyGraph :=
  ((g.nodes.filter fun entry => entry.2.marked).length,
    { g with nodes := g.nodes.map fun entry => (entry.1, { entry.2 with marked := false }) })

/-- Puts a record at its identifier, or at the next unused one if that is greater. The identifiers
that are passed over become free, the greatest of them to be used first. -/
def placeRecord (g : DependencyGraph) (id : NodeId) (record : NodeRecord) :
    Except GraphError DependencyGraph := do
  let index ← g.enterKey id record.node
  let slot := max g.next id.toNat
  let gaps := (List.range' g.next (id.toNat - g.next)).map NodeId.ofNat
  return { g with
    nodes := placed (NodeId.ofNat slot) record g.nodes
    index := index
    free := gaps.reverse ++ g.free
    next := slot + 1 }

/-- The graph with the given records and edges, or the first rule that they break: a repeated key
in the order of identifiers, then a refused edge in the order given. -/
def ofParts (records : List (NodeId × NodeRecord)) (edges : List Edge) :
    Except GraphError DependencyGraph := do
  let sorted := records.mergeSort fun a b => decide (a.1 ≤ b.1)
  let base ← sorted.foldlM (fun g entry => g.placeRecord entry.1 entry.2) empty
  edges.foldlM (fun g e => Prod.snd <$> g.addEdge e) base

end DependencyGraph

end BlastRadius
