import BlastRadius.Node.Id
import BlastRadius.Relation

/-!
What can go wrong with the data of a graph, and the readers of kind and relation names that
report it.
-/

namespace BlastRadius

/-- A violated rule of the data model. -/
inductive GraphError where
  | nodeNotFound (id : NodeId)
  | duplicateKey (key : String)
  | invalidRelation (relation : Relation) (source target : NodeKind)
  | unknownNodeKind (name : String)
  | unknownRelation (name : String)
  deriving DecidableEq, Repr

def GraphError.message : GraphError → String
  | nodeNotFound id => s!"node not found: NodeId({id})"
  | duplicateKey key => s!"duplicate node key: {key}"
  | invalidRelation relation source target =>
      s!"invalid relation: {source} -[{relation}]-> {target}"
  | unknownNodeKind name => s!"unknown node kind: '{name}'"
  | unknownRelation name => s!"unknown relation: '{name}'"

/-- Reads a kind by its name or label. -/
def NodeKind.parse (text : String) : Except GraphError NodeKind :=
  match ofText? text with
  | some kind => .ok kind
  | none => .error (.unknownNodeKind text)

def Relation.parse (text : String) : Except GraphError Relation :=
  match ofText? text with
  | some relation => .ok relation
  | none => .error (.unknownRelation text)

/-- Checks that a relation may join two kinds. -/
def Relation.check (relation : Relation) (source target : NodeKind) : Except GraphError Unit :=
  if relation.permits source target then .ok ()
  else .error (.invalidRelation relation source target)

end BlastRadius
