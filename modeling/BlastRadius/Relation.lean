import BlastRadius.Node.Kind

/-!
The typed relations between nodes and the schema: which kinds a relation may join.
-/

namespace BlastRadius

/-- The type of an edge. -/
inductive Relation where
  /-- A library provides a symbol. -/
  | provides
  /-- A dependency record belongs to its calling symbol or endpoint. -/
  | caller
  /-- A dependency record names a called symbol or endpoint. -/
  | callees
  /-- A binding is about a library, component or asset. -/
  | specializesInto
  /-- An endpoint is exposed by a component. -/
  | exposes
  /-- An endpoint is implemented by a symbol. -/
  | serves
  /-- A component runs on an asset. -/
  | hostedBy
  /-- A system contains a component. -/
  | composedOf
  /-- A vulnerability threatens a symbol. -/
  | threatens
  deriving DecidableEq, Repr

namespace Relation

/-- Every relation, in the order in which edges are listed. -/
def all : List Relation :=
  [provides, caller, callees, specializesInto, exposes, serves, hostedBy, composedOf, threatens]

theorem mem_all (relation : Relation) : relation ∈ all := by
  cases relation <;> decide

/-- The place of a relation in `all`. -/
def rank : Relation → Nat
  | provides => 0
  | caller => 1
  | callees => 2
  | specializesInto => 3
  | exposes => 4
  | serves => 5
  | hostedBy => 6
  | composedOf => 7
  | threatens => 8

def name : Relation → String
  | provides => "PROVIDES"
  | caller => "CALLER"
  | callees => "CALLEES"
  | specializesInto => "SPECIALIZES_INTO"
  | exposes => "EXPOSES"
  | serves => "SERVES"
  | hostedBy => "HOSTED_BY"
  | composedOf => "COMPOSED_OF"
  | threatens => "THREATENS"

/-- The relation whose name is exactly `text`. -/
def ofName? (text : String) : Option Relation :=
  all.find? fun relation => relation.name == text

/-- The relation that `text` names, in any case of its letters. -/
def ofText? (text : String) : Option Relation :=
  all.find? fun relation => Text.sameUpToCase relation.name text

/-- The schema: a relation joins nodes of these kinds only. -/
def permits : Relation → NodeKind → NodeKind → Bool
  | provides, .library, .symbol => true
  | caller, .callGraphDependency, .symbol => true
  | caller, .interComponentDependency, .endpoint => true
  | callees, .callGraphDependency, .symbol => true
  | callees, .interComponentDependency, .endpoint => true
  | specializesInto, .binding, .library => true
  | specializesInto, .binding, .component => true
  | specializesInto, .binding, .asset => true
  | exposes, .endpoint, .component => true
  | serves, .endpoint, .symbol => true
  | hostedBy, .component, .asset => true
  | composedOf, .system, .component => true
  | threatens, .vulnerability, .symbol => true
  | _, _, _ => false

instance : ToString Relation := ⟨name⟩

end Relation

end BlastRadius
