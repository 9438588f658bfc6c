import BlastRadius.Graph.Mermaid
import BlastRadius.Impact.Program
import BlastRadius.Inventory.Fixture

/-!
What was recorded: the symbols of a library, the endpoints and hosts of a component, the callees of
a symbol, and the whole graph as a flowchart.
-/

namespace BlastRadius

/-- A library with its symbols, ascending. -/
structure LibraryView where
  id : NodeId
  library : Artifact
  symbols : List String
  marked : Bool
  deriving DecidableEq, Repr

def LibraryView.toJson (view : LibraryView) : Json :=
  .obj [("id", view.id.toJson), ("library", view.library.toJson),
    ("symbols", textsToJson view.symbols), ("marked", .bool view.marked)]

/-- A component with the names of its endpoints and with its hosts, both ascending. -/
structure ComponentView where
  id : NodeId
  component : Artifact
  endpoints : List String
  hosts : List Artifact
  marked : Bool
  deriving DecidableEq, Repr

def ComponentView.toJson (view : ComponentView) : Json :=
  .obj [("id", view.id.toJson), ("component", view.component.toJson),
    ("endpoints", textsToJson view.endpoints),
    ("hosts", .arr (view.hosts.map Artifact.toJson)), ("marked", .bool view.marked)]

namespace Query

open StoreProgram (call)
open ImpactProgram (ofStore)

/-- Texts in ascending order by code point, equal ones kept. -/
def sortTexts (texts : List String) : List String :=
  texts.mergeSort fun a b => !decide (b < a)

/-- A list without the elements that equal their predecessor. -/
def withoutRepeats : List String → List String
  | [] => []
  | text :: rest =>
      match withoutRepeats rest with
      | [] => [text]
      | other :: others => if text = other then other :: others else text :: other :: others

/-- What `pick` takes from the nodes of a list. -/
def pickFrom {α : Type} (pick : Node → Option α) (ids : List NodeId) : StoreProgram (List α) :=
  StoreProgram.gather (fun id => do
    let node ← call (.getNode id)
    return (pick node).toList) ids

def symbolOf : Node → Option String
  | .symbol identity => some identity
  | _ => none

def endpointOf : Node → Option String
  | .endpoint name _ => some name
  | _ => none

def assetOf : Node → Option Artifact
  | .asset artifact => some artifact
  | _ => none

/-- A library and the symbols that it provides. -/
def library (artifact : Artifact) : ImpactProgram LibraryView := do
  let id ← ImpactProgram.findArtifact (.library artifact)
  ofStore do
    let provided ← call (.targets id .provides)
    let symbols ← pickFrom symbolOf provided
    let marked ← call (.isMarked id)
    return ⟨id, artifact, sortTexts symbols, marked⟩

/-- A component, the endpoints that it exposes and the assets that host it. -/
def component (artifact : Artifact) : ImpactProgram ComponentView := do
  let id ← ImpactProgram.findArtifact (.component artifact)
  ofStore do
    let exposed ← call (.sources id .exposes)
    let endpoints ← pickFrom endpointOf exposed
    let assets ← call (.targets id .hostedBy)
    let hosts ← pickFrom assetOf assets
    let marked ← call (.isMarked id)
    return ⟨id, artifact, sortTexts endpoints, Artifact.sort hosts, marked⟩

/-- The symbols that a symbol calls, ascending and each once. -/
def callees (symbol : String) : ImpactProgram (List String) := do
  let id ← ImpactProgram.findSymbol symbol
  ofStore do
    let records ← call (.sources id .caller)
    let found ← StoreProgram.gather (fun record => do
      let called ← call (.targets record .callees)
      pickFrom symbolOf called) records
    return withoutRepeats (sortTexts found)

def flowchart : ImpactProgram String := do
  let graph ← ImpactProgram.call .loadGraph
  return Mermaid.render graph

end Query

end BlastRadius
