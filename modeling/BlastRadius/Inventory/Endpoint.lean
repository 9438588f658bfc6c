import BlastRadius.Inventory.Dependency

/-!
Endpoints: named network operations, each exposed by one component, the symbols that implement
them and the calls between them.
-/

namespace BlastRadius

/-- An endpoint by its name and the component that exposes it. -/
structure EndpointRef where
  component : Artifact
  name : String
  deriving DecidableEq, Repr

namespace EndpointRef

open Json (Decoder RecordReader)

instance : ToString EndpointRef :=
  ⟨fun endpoint => s!"endpoint '{endpoint.name}' of {endpoint.component}"⟩

def toJson (endpoint : EndpointRef) : Json :=
  .obj [("component", endpoint.component.toJson), ("name", .str endpoint.name)]

def decode : Decoder EndpointRef :=
  RecordReader.decode <|
    ((RecordReader.field "component" Artifact.decode).and
      (RecordReader.field "name" Decoder.string)).map fun (owner, name) => ⟨owner, name⟩

end EndpointRef

namespace Inventory

open StoreProgram (call)
open ImpactProgram (ofStore require)

/-- Merges an endpoint and the edge from it to its component, which must exist. -/
def upsertEndpoint (endpoint : EndpointRef) : ImpactProgram NodeId := do
  require (!endpoint.name.isEmpty) "endpoint name must not be empty"
  let owner ← ImpactProgram.findArtifact (.component endpoint.component)
  ofStore <| StoreProgram.atomically do
    let (id, _) ← StoreProgram.mergeNode (.endpoint endpoint.name owner)
    let _ ← call (.insertEdge ⟨id, .exposes, owner⟩)
    return id

/-- The node of an endpoint, which must exist. -/
def findEndpoint (endpoint : EndpointRef) : ImpactProgram NodeId := do
  let owner ← ImpactProgram.findArtifact (.component endpoint.component)
  ImpactProgram.findAs (.endpoint endpoint.name owner) (toString endpoint)

/-- Records that an endpoint calls others. The caller must be accepted; callees that are not are
reported after the others have been linked. -/
def addNetworkCalls (caller : EndpointRef) (callees : List EndpointRef) :
    ImpactProgram DependencyLink := do
  let id ← upsertEndpoint caller
  let outcomes ← ImpactProgram.collect toString upsertEndpoint {} callees
  linkOutcomes .network id outcomes

/-- Records that a symbol implements an endpoint and says whether that is new. Both must exist. -/
def addServes (endpoint : EndpointRef) (symbol : String) : ImpactProgram Bool := do
  let served ← findEndpoint endpoint
  let server ← ImpactProgram.findSymbol symbol
  ofStore (call (.insertEdge ⟨served, .serves, server⟩))

end Inventory

end BlastRadius
