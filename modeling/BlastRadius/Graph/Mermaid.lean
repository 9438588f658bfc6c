import BlastRadius.Graph.Basic

/-!
Mermaid flowcharts: a header, a line for each node, a line for each edge and, if some nodes are
marked, two lines that give them a style of their own.
-/

namespace BlastRadius.Mermaid

/-- A text within the quotes of a label: a double quote is written as an entity. -/
def escaped (text : String) : String :=
  String.join (text.toList.map fun c => if c = '"' then "#quot;" else c.toString)

/-- The name of a node in a flowchart. -/
def nodeName (id : NodeId) : String := s!"n{id}"

def nodeLine (id : NodeId) (node : Node) : String :=
  "    " ++ nodeName id ++ "[\"" ++ escaped node.label ++ "\"]"

def edgeLine (e : Edge) : String :=
  "    " ++ nodeName e.source ++ " -->|" ++ e.relation.name ++ "| " ++ nodeName e.target

/-- The lines that set the marked nodes off. -/
def classLines : List NodeId → List String
  | [] => []
  | ids =>
      ["    classDef marked fill:#f66,stroke:#900,color:#fff",
        "    class " ++ ",".intercalate (ids.map nodeName) ++ " marked"]

def lines (g : DependencyGraph) : List String :=
  "flowchart TD" ::
    (g.nodes.map fun entry => nodeLine entry.1 entry.2.node) ++
    g.edges.map edgeLine ++
    classLines (g.idsWhere NodeRecord.marked)

/-- The flowchart of a graph. Every line ends with a line feed. -/
def render (g : DependencyGraph) : String :=
  String.join ((lines g).map (· ++ "\n"))

end BlastRadius.Mermaid
