/-!
Versioned artifacts: what names a library, a component or an asset.
-/

namespace BlastRadius

/-- The name and version of a library, component or asset. -/
structure Artifact where
  name : String
  version : String
  deriving DecidableEq, Repr, Inhabited

namespace Artifact

/-- An artifact without a name or without a version names nothing. -/
def isBlank (artifact : Artifact) : Bool :=
  artifact.name.isEmpty || artifact.version.isEmpty

/-- Artifacts are ordered by name, then by version, both by code point. -/
def le (a b : Artifact) : Bool :=
  decide (a.name < b.name) || (a.name == b.name && !decide (b.version < a.version))

/-- The artifacts in ascending order, equal ones kept. -/
def sort (artifacts : List Artifact) : List Artifact :=
  artifacts.mergeSort le

instance : ToString Artifact := ⟨fun a => a.name ++ "@" ++ a.version⟩

end Artifact

end BlastRadius
