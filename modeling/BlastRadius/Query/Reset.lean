import BlastRadius.Impact.Program
import BlastRadius.Node.Codec

/-!
Taking things back: every mark, the whole graph, or the nodes of some kinds.
-/

namespace BlastRadius

/-- The kinds of node that one source of data feeds, which are removed together. -/
inductive Domain where
  | callGraph
  | topology
  | assets
  deriving DecidableEq, Repr

namespace Domain

def all : List Domain := [callGraph, topology, assets]

def name : Domain → String
  | callGraph => "call_graph"
  | topology => "topology"
  | assets => "assets"

/-- The domain whose name is exactly `text`. -/
def ofName? (text : String) : Option Domain :=
  all.find? fun domain => domain.name == text

/-- Reads a domain by its name. The two words of a name may also be joined by a hyphen. -/
def parse (text : String) : Except ImpactError Domain :=
  match ofName? (if text = "call-graph" then callGraph.name else text) with
  | some domain => .ok domain
  | none => .error (.invalid s!"unknown domain: {text}")

def kinds : Domain → List NodeKind
  | callGraph => [.library, .symbol, .callGraphDependency]
  | topology => [.component, .endpoint, .interComponentDependency]
  | assets => [.asset]

def toJson (domain : Domain) : Json := .str domain.name

def decode : Json.Decoder Domain := Json.Decoder.nameOf ofName?

end Domain

/-- How many nodes of each kind were removed, in the order of removal. -/
structure RemovedNodes where
  removed : List (NodeKind × Nat)
  deriving DecidableEq, Repr

namespace RemovedNodes

def total (removal : RemovedNodes) : Nat :=
  removal.removed.foldr (fun entry total => entry.2 + total) 0

def toJson (removal : RemovedNodes) : Json :=
  .obj [
    ("removed", .arr (removal.removed.map fun (kind, count) => .arr [kind.toJson, .num count])),
    ("total", .num removal.total)]

end RemovedNodes

namespace Query

open StoreProgram (call)
open ImpactProgram (ofStore)

/-- Clears every mark and says how many there were. -/
def resetMarks : ImpactProgram Nat := ImpactProgram.call .clearMarks

def reset : ImpactProgram Unit := ImpactProgram.call .reset

/-- The kinds to remove when some are asked for. The endpoints of removed
components go with them. -/
def withEndpoints (kinds : List NodeKind) : List NodeKind :=
  if kinds.contains .component && !kinds.contains .endpoint then kinds ++ [.endpoint] else kinds

/-- Removes the nodes of some kinds and their edges in one transaction. -/
def resetKinds (kinds : List NodeKind) : ImpactProgram RemovedNodes := do
  let removed ← ofStore <| StoreProgram.atomically <|
    StoreProgram.each (fun kind => do
      let count ← call (.removeKind kind)
      return (kind, count)) (withEndpoints kinds)
  return ⟨removed⟩

def resetDomain (domain : Domain) : ImpactProgram RemovedNodes := resetKinds domain.kinds

end Query

end BlastRadius
