import BlastRadius.Node.Codec
import BlastRadius.Store.Basic

/-!
The store in a relational database: a table of nodes, whose rows hold a node as JSON text beside
its kind, key and mark, and a table of edges.

The columns are read for what they are asked: kinds and marks come from their columns, nodes and
whole graphs from the JSON text. A row put there by other hands may have any number and need not
agree with itself.
-/

namespace BlastRadius

/-- A row of the table of nodes. -/
structure NodeRow where
  id : Int
  kind : String
  /-- The canonical key, which no other row has. -/
  uniqueKey : Option String
  json : String
  marked : Bool := false
  deriving DecidableEq, Repr

/-- A row of the table of edges. -/
structure EdgeRow where
  source : NodeId
  relation : String
  target : NodeId
  deriving DecidableEq, Repr

/-- The contents of the two tables. -/
structure Tables where
  /-- The rows of nodes, by ascending number. -/
  nodes : List NodeRow := []
  edges : List EdgeRow := []
  deriving DecidableEq, Repr

/-- A database with its open transaction levels. -/
structure Database where
  tables : Tables := {}
  /-- The tables to return to, those of the innermost level first. -/
  savepoints : List Tables := []
  deriving DecidableEq, Repr

namespace Tables

def row? (tables : Tables) (id : NodeId) : Option NodeRow :=
  tables.nodes.find? fun row => row.id == id.toNat

/-- The row of a node that should exist. -/
def row (tables : Tables) (id : NodeId) : Except StoreError NodeRow :=
  match tables.row? id with
  | some found => .ok found
  | none => .error (.nodeNotFound id)

/-- The identifier that a row number stands for. -/
def identifier (number : Int) : Except StoreError NodeId :=
  match NodeId.ofInt? number with
  | some id => .ok id
  | none => .error (.engine none s!"integer {number} out of range")

/-- The identifiers of the rows that satisfy `p`, ascending. -/
def idsWhere (tables : Tables) (p : NodeRow → Bool) : Except StoreError (List NodeId) :=
  (tables.nodes.filter p).mapM fun row => identifier row.id

/-- The kind column of a row. -/
def kindOf (tables : Tables) (id : NodeId) : Except StoreError NodeKind := do
  let row ← tables.row id
  (NodeKind.parse row.kind).mapError .ofGraph

/-- The node in the JSON text of a row. -/
def nodeOf (row : NodeRow) : Except StoreError Node :=
  (Node.ofText row.json).mapError fun _ => .serialization "invalid node"

/-- The number that a new row takes: one more than the greatest, or one in an empty table. -/
def nextNumber (tables : Tables) : Int :=
  match tables.nodes.getLast? with
  | some row => row.id + 1
  | none => 1

def keyTaken (tables : Tables) (key : Option String) : Bool :=
  key.isSome && tables.nodes.any fun row => row.uniqueKey == key

/-- Inserts a row for a node. A row whose number is no identifier is removed again. -/
def insertNode (tables : Tables) (node : Node) : Except StoreError (NodeId × Tables) :=
  let key := node.key?.map NodeKey.canonical
  if tables.keyTaken key then .error (.uniqueViolation (key.getD ""))
  else
    match NodeId.ofInt? tables.nextNumber with
    | none => .error (.idOverflow tables.nextNumber)
    | some id =>
        let row : NodeRow :=
          { id := tables.nextNumber, kind := node.kind.name, uniqueKey := key, json := node.toText }
        .ok (id, { tables with nodes := tables.nodes ++ [row] })

def findNode (tables : Tables) (key : NodeKey) : Except StoreError (Option NodeId) :=
  match tables.nodes.find? fun row => row.uniqueKey == some key.canonical with
  | some row => some <$> identifier row.id
  | none => .ok none

/-- The order of the rows of edges: by source, then by the text of the relation, then by target. -/
def edgeBefore (a b : EdgeRow) : Bool :=
  decide (a.source < b.source) ||
    (a.source == b.source &&
      (decide (a.relation < b.relation) ||
        (a.relation == b.relation && decide (a.target < b.target))))

/-- Inserts a row before the first one that does not come before it. -/
def linked (e : EdgeRow) : List EdgeRow → List EdgeRow
  | [] => [e]
  | f :: rest => if edgeBefore f e then f :: linked e rest else e :: f :: rest

/-- Inserts an edge that the schema permits and says whether it is new. -/
def insertEdge (tables : Tables) (edge : Edge) : Except StoreError (Bool × Tables) := do
  let source ← tables.kindOf edge.source
  let target ← tables.kindOf edge.target
  (edge.relation.check source target).mapError StoreError.ofGraph
  let row : EdgeRow := ⟨edge.source, edge.relation.name, edge.target⟩
  if tables.edges.contains row then return (false, tables)
  else return (true, { tables with edges := linked row tables.edges })

/-- The nodes that a relation leads to from a node, ascending. -/
def targets (tables : Tables) (id : NodeId) (relation : Relation) :
    Except StoreError (List NodeId) := do
  let _ ← tables.row id
  return (tables.edges.filter fun e => e.source == id && e.relation == relation.name).map
    (·.target)

/-- The nodes from which a relation leads to a node, ascending. -/
def sources (tables : Tables) (id : NodeId) (relation : Relation) :
    Except StoreError (List NodeId) := do
  let _ ← tables.row id
  return (tables.edges.filter fun e => e.target == id && e.relation == relation.name).map
    (·.source)

def isListed (ids : List NodeId) (row : NodeRow) : Bool :=
  ids.any fun id => row.id == id.toNat

/-- Marks the listed nodes and says how many were not marked before. If one of them does not
exist, nothing is marked. -/
def markNodes (tables : Tables) (ids : List NodeId) : Except StoreError (Nat × Tables) :=
  match ids.find? fun id => (tables.row? id).isNone with
  | some missing => .error (.nodeNotFound missing)
  | none =>
      .ok ((tables.nodes.filter fun row => !row.marked && isListed ids row).length,
        { tables with
          nodes := tables.nodes.map fun row =>
            if isListed ids row then { row with marked := true } else row })

/-- Clears every mark and says how many there were. -/
def clearMarks (tables : Tables) : Nat × Tables :=
  ((tables.nodes.filter NodeRow.marked).length,
    { tables with nodes := tables.nodes.map fun row => { row with marked := false } })

/-- The record in a row and its identifier. -/
def entry (row : NodeRow) : Except StoreError (NodeId × NodeRecord) := do
  let id ← identifier row.id
  let node ← nodeOf row
  return (id, { node := node, marked := row.marked })

def edge (row : EdgeRow) : Except StoreError Edge := do
  let relation ← (Relation.parse row.relation).mapError .ofGraph
  return ⟨row.source, relation, row.target⟩

def graph (tables : Tables) : Except StoreError DependencyGraph := do
  let records ← tables.nodes.mapM entry
  let edges ← tables.edges.mapM edge
  (DependencyGraph.ofParts records edges).mapError .ofGraph

/-- Removes the rows of a kind and the edges at them, and says how many rows there were. -/
def removeKind (tables : Tables) (kind : NodeKind) : Nat × Tables :=
  let gone := tables.nodes.filter fun row => row.kind == kind.name
  let touches (id : NodeId) : Bool := gone.any fun row => row.id == id.toNat
  (gone.length,
    { nodes := tables.nodes.filter fun row => !(row.kind == kind.name)
      edges := tables.edges.filter fun e => !touches e.source && !touches e.target })

/-- Inserts a row before the first one with a greater number. -/
def planted (row : NodeRow) : List NodeRow → List NodeRow
  | [] => [row]
  | other :: rest => if other.id < row.id then other :: planted row rest else row :: other :: rest

/-- Puts a row into the table of nodes as it is, if its number and key are not taken. -/
def plant (tables : Tables) (row : NodeRow) : Except StoreError Tables :=
  if tables.keyTaken row.uniqueKey || tables.nodes.any fun other => other.id == row.id then
    .error (.engine (some 19) "constraint failed")
  else .ok { tables with nodes := planted row tables.nodes }

end Tables

namespace Database

def depth (db : Database) : Nat := db.savepoints.length

/-- Opens or closes a transaction level. `engine` is the engine's answer to the statement that
does it: when the statement fails, a level is not opened and not committed, but a level that was to
be rolled back is closed all the same. -/
def controlWith (engine : Except StoreError Unit) (request : Control) (db : Database) :
    Outcome Database Unit :=
  match request, db.savepoints with
  | .begin, savepoints =>
      match engine with
      | .ok _ => (.ok (), { db with savepoints := db.tables :: savepoints })
      | .error error => (.error error, db)
  | .commit, _ :: savepoints =>
      match engine with
      | .ok _ => (.ok (), { db with savepoints := savepoints })
      | .error error => (.error error, db)
  | .rollback, tables :: savepoints =>
      match engine with
      | .ok _ => (.ok (), ⟨tables, savepoints⟩)
      | .error error => (.error error, { db with savepoints := savepoints })
  | .commit, [] | .rollback, [] => (.error .noTransaction, db)

/-- Opens or closes a transaction level with an engine that does not fail. -/
def control : Control → Database → Outcome Database Unit := controlWith (.ok ())

/-- The answer to a question about the tables. -/
def ask {α : Type} (db : Database) (answer : Except StoreError α) : Outcome Database α :=
  (answer, db)

/-- A change of the tables that may be refused. -/
def change {α : Type} (db : Database) (result : Except StoreError (α × Tables)) :
    Outcome Database α :=
  match result with
  | .ok (value, tables) => (.ok value, { db with tables := tables })
  | .error error => (.error error, db)

def call (c : Call) (db : Database) : Outcome Database c.Reply :=
  let tables := db.tables
  match c with
  | .insertNode node => db.change (tables.insertNode node)
  | .getNode id => db.ask (tables.row id >>= Tables.nodeOf)
  | .nodeKind id => db.ask (tables.kindOf id)
  | .findNode key => db.ask (tables.findNode key)
  | .nodesOfKind kind => db.ask (tables.idsWhere fun row => row.kind == kind.name)
  | .insertEdge edge => db.change (tables.insertEdge edge)
  | .targets id relation => db.ask (tables.targets id relation)
  | .sources id relation => db.ask (tables.sources id relation)
  | .isMarked id => db.ask (NodeRow.marked <$> tables.row id)
  | .markedNodes kind =>
      db.ask (tables.idsWhere fun row => row.kind == kind.name && row.marked)
  | .markNodes ids => db.change (tables.markNodes ids)
  | .clearMarks => db.change (.ok tables.clearMarks)
  | .loadGraph => db.ask tables.graph
  | .removeKind kind => db.change (.ok (tables.removeKind kind))
  | .reset => db.change (.ok ((), {}))

def store : Store Database := .plain control call

/-- The database after it was closed and opened again: the work of open levels is lost. -/
def reopened (db : Database) : Database :=
  { tables := db.savepoints.getLastD db.tables }

end Database

end BlastRadius
