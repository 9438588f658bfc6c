import BlastRadius.Node.Basic

/-!
The uniqueness keys of nodes and their canonical text. Every part of a key is written after its
length in bytes, so no two keys share a canonical text.
-/

namespace BlastRadius

/-- What makes a node unique among the nodes of its kind. -/
inductive NodeKey where
  | symbol (identity : String)
  | library (artifact : Artifact)
  | component (artifact : Artifact)
  | asset (artifact : Artifact)
  | endpoint (name : String) (component : NodeId)
  | vulnerability (identity : String)
  | system (name : String)
  deriving DecidableEq, Repr

namespace NodeKey

/-- The kind of the nodes with this key. -/
def kind : NodeKey → NodeKind
  | symbol _ => .symbol
  | library _ => .library
  | component _ => .component
  | asset _ => .asset
  | endpoint _ _ => .endpoint
  | vulnerability _ => .vulnerability
  | system _ => .system

/-- The texts that tell keys of one kind apart. -/
def parts : NodeKey → List String
  | symbol identity | vulnerability identity => [identity]
  | library artifact | component artifact | asset artifact => [artifact.name, artifact.version]
  | endpoint name owner => [name, toString owner]
  | system name => [name]

/-- One part of a canonical text: a colon, the length of the part in bytes, a hash sign and the
part itself. -/
def framed (part : String) : String :=
  ":" ++ toString part.utf8ByteSize ++ "#" ++ part

/-- The canonical text: the name of the kind and the framed parts. It is what the unique index of
a store holds. -/
def canonical (key : NodeKey) : String :=
  key.parts.foldl (fun text part => text ++ framed part) key.kind.name

instance : ToString NodeKey where
  toString
    | symbol identity => s!"symbol '{identity}'"
    | library artifact => s!"library {artifact}"
    | component artifact => s!"component {artifact}"
    | asset artifact => s!"asset {artifact}"
    | endpoint name owner => s!"endpoint '{name}' of node {owner}"
    | vulnerability identity => s!"vulnerability '{identity}'"
    | system name => s!"system '{name}'"

end NodeKey

/-- The key of a node. Records of calls and bindings have none, nor has a vulnerability without
an identity. -/
def Node.key? : Node → Option NodeKey
  | symbol identity => some (.symbol identity)
  | library artifact => some (.library artifact)
  | component artifact => some (.component artifact)
  | asset artifact => some (.asset artifact)
  | endpoint name owner => some (.endpoint name owner)
  | vulnerability identity => identity.map .vulnerability
  | system name => some (.system name)
  | callGraphDependency | binding | interComponentDependency => none

theorem Node.kind_of_key? {node : Node} {key : NodeKey} (h : node.key? = some key) :
    key.kind = node.kind := by
  cases node <;> simp_all [Node.key?, Node.kind]
  all_goals first | (subst h; rfl) | (obtain ⟨_, _, rfl⟩ := h; rfl)

end BlastRadius
