import BlastRadius.Node.Artifact
import BlastRadius.Node.Id
import BlastRadius.Node.Kind

/-!
The nodes of a dependency graph. A node says what it stands for; its mark is kept beside it, so
that clearing marks never changes nodes.
-/

namespace BlastRadius

/-- A node of the dependency graph. -/
inductive Node where
  /-- A callable unit of code. -/
  | symbol (identity : String)
  /-- The record that one symbol calls others. -/
  | callGraphDependency
  /-- A reusable code artifact. -/
  | library (artifact : Artifact)
  /-- A deployable service. -/
  | component (artifact : Artifact)
  /-- A unit of hosting. -/
  | asset (artifact : Artifact)
  /-- The statement that some artifacts denote one deployed thing. -/
  | binding
  /-- A network operation that one component exposes. -/
  | endpoint (name : String) (component : NodeId)
  /-- The record that one endpoint calls others. -/
  | interComponentDependency
  /-- A flaw that threatens one symbol. -/
  | vulnerability (identity : Option String)
  /-- A named aggregate of components. -/
  | system (name : String)
  deriving DecidableEq, Repr

namespace Node

def kind : Node → NodeKind
  | symbol _ => .symbol
  | callGraphDependency => .callGraphDependency
  | library _ => .library
  | component _ => .component
  | asset _ => .asset
  | binding => .binding
  | endpoint _ _ => .endpoint
  | interComponentDependency => .interComponentDependency
  | vulnerability _ => .vulnerability
  | system _ => .system

/-- What stands in for the identity of a vulnerability that has none. -/
def unidentified : String := "<unidentified>"

/-- A short text for people: the label of the kind and the name of the node, if it has one. -/
def label (node : Node) : String :=
  match node with
  | symbol identity => node.kind.label ++ ": " ++ identity
  | library artifact | component artifact | asset artifact =>
      node.kind.label ++ ": " ++ toString artifact
  | endpoint name _ => node.kind.label ++ ": " ++ name
  | vulnerability identity => node.kind.label ++ ": " ++ identity.getD unidentified
  | system name => node.kind.label ++ ": " ++ name
  | callGraphDependency | binding | interComponentDependency => node.kind.label

end Node

end BlastRadius
