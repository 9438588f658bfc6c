import BlastRadius.Json.Decode
import BlastRadius.Json.Value
import BlastRadius.Node.Key
import BlastRadius.Relation

/-!
The JSON form of identifiers, kinds, relations, artifacts, nodes and keys. Nodes and keys carry
their kind as the member `kind`.
-/

namespace BlastRadius

open Json (Decoder RecordReader)

def NodeId.toJson (id : NodeId) : Json := .num id.toNat

def NodeId.decode : Decoder NodeId := fun draft =>
  NodeId.ofNat <$> Decoder.natBelow NodeId.count draft

def NodeId.listToJson (ids : List NodeId) : Json := .arr (ids.map toJson)

def NodeKind.toJson (kind : NodeKind) : Json := .str kind.name

def NodeKind.decode : Decoder NodeKind := Decoder.nameOf ofName?

def Relation.toJson (relation : Relation) : Json := .str relation.name

def Relation.decode : Decoder Relation := Decoder.nameOf ofName?

namespace Artifact

def members (artifact : Artifact) : List (String × Json) :=
  [("name", .str artifact.name), ("version", .str artifact.version)]

def toJson (artifact : Artifact) : Json := .obj artifact.members

def reader : RecordReader Artifact :=
  ((RecordReader.field "name" Decoder.string).and
    (RecordReader.field "version" Decoder.string)).map fun (name, version) => ⟨name, version⟩

def decode : Decoder Artifact := reader.decode

end Artifact

/-- Reads the only text of a node or key. -/
def oneTextReader {α : Type} (name : String) (build : String → α) : RecordReader α :=
  (RecordReader.field name Decoder.string).map build

/-- Reads the name and the component of an endpoint. -/
def endpointReader {α : Type} (build : String → NodeId → α) : RecordReader α :=
  ((RecordReader.field "name" Decoder.string).and
    (RecordReader.field "component" NodeId.decode)).map fun (name, owner) => build name owner

namespace Node

/-- The members of a node beside its kind. -/
def members : Node → List (String × Json)
  | symbol identity => [("identity", .str identity)]
  | library artifact | component artifact | asset artifact => artifact.members
  | endpoint name owner => [("name", .str name), ("component", owner.toJson)]
  | vulnerability none => [("identity", .null)]
  | vulnerability (some identity) => [("identity", .str identity)]
  | system name => [("name", .str name)]
  | callGraphDependency | binding | interComponentDependency => []

def toJson (node : Node) : Json := .obj (("kind", node.kind.toJson) :: node.members)

def readerOf : NodeKind → RecordReader Node
  | .symbol => oneTextReader "identity" symbol
  | .callGraphDependency => RecordReader.unit.map fun _ => callGraphDependency
  | .library => Artifact.reader.map library
  | .component => Artifact.reader.map component
  | .asset => Artifact.reader.map asset
  | .binding => RecordReader.unit.map fun _ => binding
  | .endpoint => endpointReader endpoint
  | .interComponentDependency => RecordReader.unit.map fun _ => interComponentDependency
  | .vulnerability =>
      (RecordReader.nullableField "identity" Decoder.string).map vulnerability
  | .system => oneTextReader "name" system

def decode : Decoder Node :=
  RecordReader.tagged "kind" fun name => (NodeKind.ofName? name).map readerOf

def toText (node : Node) : String := node.toJson.compact

def ofText (text : String) : Except Json.Flaw Node := Json.decodeText decode text

end Node

namespace NodeKey

/-- The members of a key beside its kind. -/
def members : NodeKey → List (String × Json)
  | symbol identity | vulnerability identity => [("identity", .str identity)]
  | library artifact | component artifact | asset artifact => artifact.members
  | endpoint name owner => [("name", .str name), ("component", owner.toJson)]
  | system name => [("name", .str name)]

def toJson (key : NodeKey) : Json := .obj (("kind", key.kind.toJson) :: key.members)

/-- Reads the keys of the nodes of a kind, if these have keys. -/
def readerOf? : NodeKind → Option (RecordReader NodeKey)
  | .symbol => some (oneTextReader "identity" symbol)
  | .library => some (Artifact.reader.map library)
  | .component => some (Artifact.reader.map component)
  | .asset => some (Artifact.reader.map asset)
  | .endpoint => some (endpointReader endpoint)
  | .vulnerability => some (oneTextReader "identity" vulnerability)
  | .system => some (oneTextReader "name" system)
  | .callGraphDependency | .binding | .interComponentDependency => none

def decode : Decoder NodeKey :=
  RecordReader.tagged "kind" fun name => (NodeKind.ofName? name).bind readerOf?

end NodeKey

end BlastRadius
