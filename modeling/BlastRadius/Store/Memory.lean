import BlastRadius.Store.Basic

/-!
The store in memory: a graph, and for each open transaction level the graph as it was when the
level was opened.
-/

namespace BlastRadius

/-- A graph in memory with its open transaction levels. -/
structure Memory where
  graph : DependencyGraph := {}
  /-- The graphs to return to, the one of the innermost level first. -/
  snapshots : List DependencyGraph := []
  deriving DecidableEq, Repr

namespace Memory

def depth (memory : Memory) : Nat := memory.snapshots.length

def control (request : Control) (memory : Memory) : Outcome Memory Unit :=
  match request, memory.snapshots with
  | .begin, snapshots => (.ok (), { memory with snapshots := memory.graph :: snapshots })
  | .commit, _ :: snapshots => (.ok (), { memory with snapshots := snapshots })
  | .rollback, graph :: snapshots => (.ok (), ⟨graph, snapshots⟩)
  | .commit, [] | .rollback, [] => (.error .noTransaction, memory)

/-- The answer to a question about the graph. -/
def ask {α : Type} (memory : Memory) (answer : Except GraphError α) : Outcome Memory α :=
  (answer.mapError .ofGraph, memory)

/-- A change of the graph that may be refused. -/
def change {α : Type} (memory : Memory) (result : Except GraphError (α × DependencyGraph)) :
    Outcome Memory α :=
  match result with
  | .ok (value, graph) => (.ok value, { memory with graph := graph })
  | .error error => (.error (.ofGraph error), memory)

def call (c : Call) (memory : Memory) : Outcome Memory c.Reply :=
  let g := memory.graph
  match c with
  | .insertNode node => memory.change (g.addNode node)
  | .getNode id => memory.ask (g.node id)
  | .nodeKind id => memory.ask (Node.kind <$> g.node id)
  | .findNode key => memory.ask (.ok (g.find? key))
  | .nodesOfKind kind => memory.ask (.ok (g.nodesOfKind kind))
  | .insertEdge edge => memory.change (g.addEdge edge)
  | .targets id relation => memory.ask (g.targets id relation)
  | .sources id relation => memory.ask (g.sources id relation)
  | .isMarked id => memory.ask (g.isMarked id)
  | .markedNodes kind => memory.ask (.ok (g.markedOfKind kind))
  | .markNodes ids => memory.change (g.setMarks ids)
  | .clearMarks => memory.change (.ok g.clearMarks)
  | .loadGraph => memory.ask (.ok g)
  | .removeKind kind => memory.change (.ok (g.removeKind kind))
  | .reset => memory.change (.ok ((), .empty))

def store : Store Memory := .plain control call

end Memory

end BlastRadius
