import BlastRadius.Impact.Program
import BlastRadius.Node.Codec

/-!
Bindings: statements that a library, a component and an asset, as far as given, denote one deployed
thing. Two bindings never have the same set of targets.
-/

namespace BlastRadius

/-- What a binding is about. Each part may be absent. -/
structure BindingRequest where
  library : Option Artifact := none
  component : Option Artifact := none
  asset : Option Artifact := none
  deriving DecidableEq, Repr

namespace BindingRequest

open Json (Decoder RecordReader)

def members (request : BindingRequest) : List (String × Json) :=
  [("library", request.library.elim .null Artifact.toJson),
    ("component", request.component.elim .null Artifact.toJson),
    ("asset", request.asset.elim .null Artifact.toJson)]

def toJson (request : BindingRequest) : Json := .obj request.members

def decode : Decoder BindingRequest :=
  RecordReader.decode <|
    ((part "library").and ((part "component").and (part "asset"))).map
      fun (library, component, asset) => ⟨library, component, asset⟩
where
  /-- A part that may be absent. -/
  part (name : String) : RecordReader (Option Artifact) :=
    RecordReader.fieldOr name (Decoder.nullable Artifact.decode) none

/-- The keys of the parts that are given and not blank. -/
def keys (request : BindingRequest) : List NodeKey :=
  let given (part : Option Artifact) : Option Artifact :=
    part.filter fun artifact => !artifact.isBlank
  [(given request.library).map NodeKey.library, (given request.component).map NodeKey.component,
    (given request.asset).map NodeKey.asset].filterMap id

end BindingRequest

/-- A binding that answers a request. -/
structure Binding where
  id : NodeId
  created : Bool
  /-- The nodes that it is about, ascending. -/
  targets : List NodeId
  request : BindingRequest
  deriving DecidableEq, Repr

/-- A binding as an object, with the parts of the request among its members. -/
def Binding.toJson (binding : Binding) : Json :=
  .obj ([("id", binding.id.toJson), ("created", .bool binding.created),
    ("targets", NodeId.listToJson binding.targets)] ++ binding.request.members)

namespace Inventory

open StoreProgram (call)

/-- The existing nodes that a request is about, ascending. -/
def resolveTargets (request : BindingRequest) : StoreProgram (List NodeId) := do
  let found ← StoreProgram.gather (fun key => do
    let id ← call (.findNode key)
    return id.toList) request.keys
  return NodeId.ascending found

/-- A binding whose targets are exactly the given ones. Only the bindings of the first target can
have them all. -/
def exactBinding (targets : List NodeId) : StoreProgram (Option NodeId) := do
  let candidates ← match targets with
    | first :: _ => call (.sources first .specializesInto)
    | [] => call (.nodesOfKind .binding)
  StoreProgram.first? (fun candidate => do
    let existing ← call (.targets candidate .specializesInto)
    return NodeId.ascending existing == targets) candidates

def insertBinding (targets : List NodeId) : StoreProgram NodeId := do
  let id ← call (.insertNode .binding)
  let _ ← StoreProgram.each (fun target =>
    call (.insertEdge ⟨id, .specializesInto, target⟩)) targets
  return id

/-- The binding for a request in one transaction: an existing one with the same targets, or else a
new one. -/
def createBinding (request : BindingRequest) : ImpactProgram Binding :=
  ImpactProgram.ofStore <| StoreProgram.atomically do
    let targets ← resolveTargets request
    match ← exactBinding targets with
    | some id => return ⟨id, false, targets, request⟩
    | none =>
        let id ← insertBinding targets
        return ⟨id, true, targets, request⟩

end Inventory

end BlastRadius
