import BlastRadius.Text.Case

/-!
The ten kinds of node and the two spellings of each: the name that is stored and written in
addresses, and the label that diagrams and messages show.
-/

namespace BlastRadius

/-- The kind of a node. -/
inductive NodeKind where
  | symbol
  | callGraphDependency
  | library
  | component
  | asset
  | binding
  | endpoint
  | interComponentDependency
  | vulnerability
  | system
  deriving DecidableEq, Repr

namespace NodeKind

/-- Every kind, in layer order. -/
def all : List NodeKind :=
  [symbol, callGraphDependency, library, component, asset, binding, endpoint,
    interComponentDependency, vulnerability, system]

theorem mem_all (kind : NodeKind) : kind ∈ all := by
  cases kind <;> decide

def name : NodeKind → String
  | symbol => "symbol"
  | callGraphDependency => "call_graph_dependency"
  | library => "library"
  | component => "component"
  | asset => "asset"
  | binding => "binding"
  | endpoint => "endpoint"
  | interComponentDependency => "inter_component_dependency"
  | vulnerability => "vulnerability"
  | system => "system"

/-- The label shown in diagrams and messages. -/
def label : NodeKind → String
  | symbol => "Symbol"
  | callGraphDependency => "CallGraphDependency"
  | library => "Library"
  | component => "Component"
  | asset => "Asset"
  | binding => "Binding"
  | endpoint => "Endpoint"
  | interComponentDependency => "InterComponentDependency"
  | vulnerability => "Vulnerability"
  | system => "System"

/-- The kind whose stored name is exactly `text`. -/
def ofName? (text : String) : Option NodeKind :=
  all.find? fun kind => kind.name == text

/-- The kind that `text` spells as a name or a label, in any case of its letters. -/
def ofText? (text : String) : Option NodeKind :=
  all.find? fun kind => Text.sameUpToCase kind.name text || Text.sameUpToCase kind.label text

instance : ToString NodeKind := ⟨label⟩

end NodeKind

end BlastRadius
