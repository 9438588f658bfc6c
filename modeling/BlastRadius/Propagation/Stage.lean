/-!
The stages of a propagation, in the order in which they run.
-/

namespace BlastRadius

/-- A stage of a propagation. -/
inductive Stage where
  /-- The symbols that reach a marked symbol by calls. -/
  | allReachingSymbols
  /-- The libraries that provide a marked symbol, and what they specialize into. -/
  | allProvidingLibraries
  /-- The components that reach a marked symbol over the network. -/
  | allReachingComponents
  | allHostingAssets
  /-- The components hosted by a marked asset. -/
  | lateralMovement
  | allSystems
  deriving DecidableEq, Repr

namespace Stage

def all : List Stage :=
  [allReachingSymbols, allProvidingLibraries, allReachingComponents, allHostingAssets,
    lateralMovement, allSystems]

/-- The stages after the closure of calls. -/
def downstream : List Stage :=
  [allProvidingLibraries, allReachingComponents, allHostingAssets, lateralMovement, allSystems]

def letter : Stage → String
  | allReachingSymbols => "A"
  | allProvidingLibraries => "B"
  | allReachingComponents => "C"
  | allHostingAssets => "D"
  | lateralMovement => "E"
  | allSystems => "F"

def name : Stage → String
  | allReachingSymbols => "all_reaching_symbols"
  | allProvidingLibraries => "all_providing_libraries"
  | allReachingComponents => "all_reaching_components"
  | allHostingAssets => "all_hosting_assets"
  | lateralMovement => "lateral_movement"
  | allSystems => "all_systems"

def ofName? (text : String) : Option Stage :=
  all.find? fun stage => stage.name == text

instance : ToString Stage := ⟨fun stage => s!"{stage.letter} ({stage.name})"⟩

end Stage

end BlastRadius
