import BlastRadius.Impact.Program
import BlastRadius.Node.Codec

/-!
Symbols, libraries, components, assets and systems. Every operation may be repeated without
changing anything more.
-/

namespace BlastRadius

/-- A library and the symbols that it was said to provide, in the order of the request. -/
structure LibraryUpsert where
  library : NodeId
  symbols : List NodeId
  deriving DecidableEq, Repr

/-- The answer to a library as an object. -/
def LibraryUpsert.toJson (answer : LibraryUpsert) : Json :=
  .obj [("library", answer.library.toJson), ("symbols", NodeId.listToJson answer.symbols)]

namespace Inventory

open StoreProgram (call mergeNode)
open ImpactProgram (ofStore require)

/-- Refuses an artifact without a name or version. -/
def requireArtifact (artifact : Artifact) (what : String) : ImpactProgram Unit :=
  require (!artifact.isBlank) s!"{what} needs a non-empty name and version"

/-- Merges a node and answers with its identifier. -/
def mergedId (node : Node) : StoreProgram NodeId := do
  let (id, _) ← mergeNode node
  return id

/-- Merges a symbol and says that a library provides it. -/
def provide (owner : NodeId) (identity : String) : StoreProgram NodeId := do
  let id ← mergedId (.symbol identity)
  let _ ← call (.insertEdge ⟨owner, .provides, id⟩)
  return id

/-- Merges a library, its symbols and the edges between them in one transaction. -/
def upsertLibrary (artifact : Artifact) (symbols : List String) : ImpactProgram LibraryUpsert := do
  requireArtifact artifact "library"
  require (symbols.all fun identity => !identity.isEmpty) "symbol identity must not be empty"
  ofStore <| StoreProgram.atomically do
    let id ← mergedId (.library artifact)
    let provided ← StoreProgram.each (provide id) symbols
    return ⟨id, provided⟩

def upsertSymbol (identity : String) : ImpactProgram NodeId := do
  require (!identity.isEmpty) "symbol identity must not be empty"
  ofStore (mergedId (.symbol identity))

def upsertComponent (artifact : Artifact) : ImpactProgram NodeId := do
  requireArtifact artifact "component"
  ofStore (mergedId (.component artifact))

def upsertAsset (artifact : Artifact) : ImpactProgram NodeId := do
  requireArtifact artifact "asset"
  ofStore (mergedId (.asset artifact))

/-- Records that a component runs on an asset and says whether that is new. Both must exist. -/
def hostComponent (component asset : Artifact) : ImpactProgram Bool := do
  let guest ← ImpactProgram.findArtifact (.component component)
  let host ← ImpactProgram.findArtifact (.asset asset)
  ofStore (call (.insertEdge ⟨guest, .hostedBy, host⟩))

/-- Records that a system contains a component and says whether that is new. -/
def compose (system : NodeId) (component : Artifact) : ImpactProgram Bool := do
  let part ← ImpactProgram.findArtifact (.component component)
  ofStore (call (.insertEdge ⟨system, .composedOf, part⟩))

/-- Merges a system and records its components. Components that do not exist are reported together
after the others have been recorded. -/
def upsertSystem (name : String) (components : List Artifact) : ImpactProgram NodeId := do
  require (!name.isEmpty) "system name must not be empty"
  let system ← ofStore (mergedId (.system name))
  let outcomes ← ImpactProgram.collect (fun component => s!"component {component}")
    (compose system) {} components
  let _ ← ImpactProgram.ofResult outcomes.result
  return system

end Inventory

end BlastRadius
