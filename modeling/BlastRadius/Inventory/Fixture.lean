import BlastRadius.Inventory.Artifacts
import BlastRadius.Inventory.Binding
import BlastRadius.Inventory.Endpoint
import BlastRadius.Inventory.Vulnerability

/-!
Fixtures: descriptions of whole graphs. A fixture is loaded section by section, so that whatever a
section refers to is there before it, and may be loaded again.
-/

namespace BlastRadius

open Json (Decoder Draft Flaw RecordReader)

/-- A library and its symbols. -/
structure LibraryEntry where
  library : Artifact
  symbols : List String := []
  deriving DecidableEq, Repr

/-- A symbol and the symbols that it calls. -/
structure CallEntry where
  caller : String
  callees : List String
  deriving DecidableEq, Repr

/-- A component and an asset that it runs on. -/
structure HostingEntry where
  component : Artifact
  asset : Artifact
  deriving DecidableEq, Repr

/-- An endpoint and a symbol that implements it. -/
structure ServesEntry where
  endpoint : EndpointRef
  symbol : String
  deriving DecidableEq, Repr

/-- An endpoint and the endpoints that it calls. -/
structure NetworkEntry where
  caller : EndpointRef
  callees : List EndpointRef
  deriving DecidableEq, Repr

/-- A system and its components. -/
structure SystemEntry where
  name : String
  components : List Artifact := []
  deriving DecidableEq, Repr

/-- A vulnerability and the symbol that it threatens. -/
structure VulnerabilityEntry where
  identity : Option String := none
  symbol : String
  deriving DecidableEq, Repr

/-- A description of a graph. -/
structure Fixture where
  symbols : List String := []
  libraries : List LibraryEntry := []
  calls : List CallEntry := []
  components : List Artifact := []
  assets : List Artifact := []
  hosting : List HostingEntry := []
  endpoints : List EndpointRef := []
  serves : List ServesEntry := []
  network : List NetworkEntry := []
  bindings : List BindingRequest := []
  systems : List SystemEntry := []
  vulnerabilities : List VulnerabilityEntry := []
  deriving DecidableEq, Repr

/-- The size of a loaded graph. -/
structure FixtureSummary where
  nodes : Nat
  edges : Nat
  deriving DecidableEq, Repr

def textsToJson (texts : List String) : Json := .arr (texts.map Json.str)

def FixtureSummary.toJson (summary : FixtureSummary) : Json :=
  .obj [("nodes", .num summary.nodes), ("edges", .num summary.edges)]

namespace LibraryEntry

/-- An entry as an object: the members of the library and its symbols. -/
def toJson (entry : LibraryEntry) : Json :=
  .obj (entry.library.members ++ [("symbols", textsToJson entry.symbols)])

def symbolsReader : RecordReader (List String) :=
  RecordReader.fieldOr "symbols" (Decoder.list Decoder.string) []

/-- Takes the members of an entry in. The symbols are decoded where they stand; every other member
is read as a whole and kept for later. -/
def takeMembers (depth : Nat) :
    symbolsReader.State → List (Option String × Draft) →
      Except Flaw (symbolsReader.State × List (Option String × Draft))
  | state, [] => .ok (state, [])
  | _, (none, _) :: _ => .error .malformed
  | state, (some name, draft) :: rest => do
      match ← symbolsReader.member state name draft with
      | some taken => takeMembers depth taken rest
      | none =>
          if draft.isSound depth then
            let (taken, kept) ← takeMembers depth state rest
            return (taken, (some name, draft) :: kept)
          else throw .malformed

/-- Decodes an entry that stands within `outer` containers. The library is taken from the members
of the entry itself, so an array is no entry, and it is decoded last. -/
def decodeWithin (outer : Nat) : Decoder LibraryEntry
  | .object given closed => do
      let (state, kept) ← takeMembers (RecordReader.depthLimit - outer - 1)
        symbolsReader.start given
      if closed then
        let library ← Artifact.reader.ofMembers kept true
        return { library := library, symbols := (symbolsReader.finish state).getD [] }
      else throw .malformed
  | draft => .error draft.misfit

/-- Decodes an entry that stands by itself. -/
def decode : Decoder LibraryEntry := decodeWithin 0

end LibraryEntry

namespace CallEntry

def toJson (entry : CallEntry) : Json :=
  .obj [("caller", .str entry.caller), ("callees", textsToJson entry.callees)]

def decode : Decoder CallEntry :=
  RecordReader.decode <|
    ((RecordReader.field "caller" Decoder.string).and
      (RecordReader.field "callees" (Decoder.list Decoder.string))).map
        fun (caller, callees) => ⟨caller, callees⟩

end CallEntry

namespace HostingEntry

def toJson (entry : HostingEntry) : Json :=
  .obj [("component", entry.component.toJson), ("asset", entry.asset.toJson)]

def decode : Decoder HostingEntry :=
  RecordReader.decode <|
    ((RecordReader.field "component" Artifact.decode).and
      (RecordReader.field "asset" Artifact.decode)).map
        fun (component, asset) => ⟨component, asset⟩

end HostingEntry

namespace ServesEntry

def toJson (entry : ServesEntry) : Json :=
  .obj [("endpoint", entry.endpoint.toJson), ("symbol", .str entry.symbol)]

def decode : Decoder ServesEntry :=
  RecordReader.decode <|
    ((RecordReader.field "endpoint" EndpointRef.decode).and
      (RecordReader.field "symbol" Decoder.string)).map
        fun (endpoint, symbol) => ⟨endpoint, symbol⟩

end ServesEntry

namespace NetworkEntry

def toJson (entry : NetworkEntry) : Json :=
  .obj [("caller", entry.caller.toJson),
    ("callees", .arr (entry.callees.map EndpointRef.toJson))]

def decode : Decoder NetworkEntry :=
  RecordReader.decode <|
    ((RecordReader.field "caller" EndpointRef.decode).and
      (RecordReader.field "callees" (Decoder.list EndpointRef.decode))).map
        fun (caller, callees) => ⟨caller, callees⟩

end NetworkEntry

namespace SystemEntry

def toJson (entry : SystemEntry) : Json :=
  .obj [("name", .str entry.name), ("components", .arr (entry.components.map Artifact.toJson))]

def decode : Decoder SystemEntry :=
  RecordReader.decode <|
    ((RecordReader.field "name" Decoder.string).and
      (RecordReader.fieldOr "components" (Decoder.list Artifact.decode) [])).map
        fun (name, components) => ⟨name, components⟩

end SystemEntry

namespace VulnerabilityEntry

def toJson (entry : VulnerabilityEntry) : Json :=
  .obj [("identity", entry.identity.elim .null Json.str), ("symbol", .str entry.symbol)]

def decode : Decoder VulnerabilityEntry :=
  RecordReader.decode <|
    ((RecordReader.fieldOr "identity" (Decoder.nullable Decoder.string) none).and
      (RecordReader.field "symbol" Decoder.string)).map
        fun (identity, symbol) => ⟨identity, symbol⟩

end VulnerabilityEntry

namespace Fixture

def toJson (fixture : Fixture) : Json :=
  .obj [
    ("symbols", textsToJson fixture.symbols),
    ("libraries", .arr (fixture.libraries.map LibraryEntry.toJson)),
    ("calls", .arr (fixture.calls.map CallEntry.toJson)),
    ("components", .arr (fixture.components.map Artifact.toJson)),
    ("assets", .arr (fixture.assets.map Artifact.toJson)),
    ("hosting", .arr (fixture.hosting.map HostingEntry.toJson)),
    ("endpoints", .arr (fixture.endpoints.map EndpointRef.toJson)),
    ("serves", .arr (fixture.serves.map ServesEntry.toJson)),
    ("network", .arr (fixture.network.map NetworkEntry.toJson)),
    ("bindings", .arr (fixture.bindings.map BindingRequest.toJson)),
    ("systems", .arr (fixture.systems.map SystemEntry.toJson)),
    ("vulnerabilities", .arr (fixture.vulnerabilities.map VulnerabilityEntry.toJson))]

/-- Reads a section that may be missing. -/
def sectionReader {α : Type} (name : String) (decode : Decoder α) : RecordReader (List α) :=
  RecordReader.fieldOr name (Decoder.list decode) []

/-- Decodes a fixture. Its libraries stand within two containers. -/
def decode : Decoder Fixture :=
  RecordReader.decode <|
    ((sectionReader "symbols" Decoder.string).and <|
      (sectionReader "libraries" (LibraryEntry.decodeWithin 2)).and <|
      (sectionReader "calls" CallEntry.decode).and <|
      (sectionReader "components" Artifact.decode).and <|
      (sectionReader "assets" Artifact.decode).and <|
      (sectionReader "hosting" HostingEntry.decode).and <|
      (sectionReader "endpoints" EndpointRef.decode).and <|
      (sectionReader "serves" ServesEntry.decode).and <|
      (sectionReader "network" NetworkEntry.decode).and <|
      (sectionReader "bindings" BindingRequest.decode).and <|
      (sectionReader "systems" SystemEntry.decode).and
      (sectionReader "vulnerabilities" VulnerabilityEntry.decode)).map
        fun (symbols, libraries, calls, components, assets, hosting, endpoints, serves, network,
            bindings, systems, vulnerabilities) =>
          { symbols, libraries, calls, components, assets, hosting, endpoints, serves, network,
            bindings, systems, vulnerabilities }

end Fixture

namespace Inventory

/-- Runs `f` on every element and drops the answers. -/
def forEach {τ α : Type} (f : τ → ImpactProgram α) : List τ → ImpactProgram Unit
  | [] => return ()
  | element :: rest => do
      let _ ← f element
      forEach f rest

/-- Loads the sections of a fixture in their order and stops at the first error. What was loaded
before it stays. -/
def loadSections (fixture : Fixture) : ImpactProgram Unit := do
  forEach upsertSymbol fixture.symbols
  forEach (fun entry => upsertLibrary entry.library entry.symbols) fixture.libraries
  forEach (fun entry => addCalls entry.caller entry.callees) fixture.calls
  forEach upsertComponent fixture.components
  forEach upsertAsset fixture.assets
  forEach (fun entry => hostComponent entry.component entry.asset) fixture.hosting
  forEach upsertEndpoint fixture.endpoints
  forEach (fun entry => addServes entry.endpoint entry.symbol) fixture.serves
  forEach (fun entry => addNetworkCalls entry.caller entry.callees) fixture.network
  forEach createBinding fixture.bindings
  forEach (fun entry => upsertSystem entry.name entry.components) fixture.systems
  forEach (fun entry => createVulnerability entry.identity entry.symbol) fixture.vulnerabilities

/-- Loads a fixture and answers with the size of the whole graph. -/
def loadFixture (fixture : Fixture) : ImpactProgram FixtureSummary := do
  loadSections fixture
  let graph ← ImpactProgram.call .loadGraph
  return ⟨graph.nodes.length, graph.edges.length⟩

end Inventory

end BlastRadius
