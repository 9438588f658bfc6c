import BlastRadius.Proofs.Inventory.Facts

/-!
What operations assert. An operation makes one assertion and then perhaps others, each by itself; a
assertion is accepted when it is well formed and the entities that it is about are there.
-/

namespace BlastRadius

/-- The key of an entity whose nodes have keys without identifiers. -/
def Entity.key? : Entity → Option NodeKey
  | symbol identity => some (.symbol identity)
  | library artifact => some (.library artifact)
  | component artifact => some (.component artifact)
  | asset artifact => some (.asset artifact)
  | system name => some (.system name)
  | endpoint _ => none

/-- Facts that are asserted together. -/
structure Assertion where
  wellFormed : Bool := true
  /-- The entities that must be there. -/
  needs : List Entity := []
  facts : List Fact := []

def Assertion.Accepted (s : Assertion) (known : Set Fact) : Prop :=
  s.wellFormed = true ∧ ∀ e ∈ s.needs, .present e ∈ known

def EndpointRef.assertion (endpoint : EndpointRef) : Assertion where
  wellFormed := !endpoint.name.isEmpty
  needs := [.component endpoint.component]
  facts := [.present (.endpoint endpoint),
    .related (.endpoint endpoint) .exposes (.component endpoint.component)]

def Artifact.provisions (library : Artifact) (symbols : List String) : List Fact :=
  symbols.flatMap fun identity =>
    [.present (.symbol identity), .related (.library library) .provides (.symbol identity)]

def LibraryEntry.assertion (entry : LibraryEntry) : Assertion where
  wellFormed := !entry.library.isBlank && entry.symbols.all fun identity => !identity.isEmpty
  facts := .present (.library entry.library) :: entry.library.provisions entry.symbols

/-- The entities that a request is about, as far as they are there. -/
def BindingRequest.group (request : BindingRequest) (known : Set Fact) : Set Entity :=
  {e | (∃ key ∈ request.keys, e.key? = some key) ∧ .present e ∈ known}

namespace Operation

/-- The first assertion of an operation. Without it nothing is accepted. -/
def head : Operation → Option Assertion
  | upsertLibrary artifact symbols => some (LibraryEntry.assertion ⟨artifact, symbols⟩)
  | upsertSymbol identity =>
      some { wellFormed := !identity.isEmpty, facts := [.present (.symbol identity)] }
  | addCalls caller _ => some { needs := [.symbol caller] }
  | upsertComponent artifact =>
      some { wellFormed := !artifact.isBlank, facts := [.present (.component artifact)] }
  | upsertAsset artifact =>
      some { wellFormed := !artifact.isBlank, facts := [.present (.asset artifact)] }
  | hostComponent guest host =>
      some { needs := [.component guest, .asset host]
             facts := [.related (.component guest) .hostedBy (.asset host)] }
  | upsertSystem name _ =>
      some { wellFormed := !name.isEmpty, facts := [.present (.system name)] }
  | upsertEndpoint endpoint => some endpoint.assertion
  | addNetworkCalls caller _ => some caller.assertion
  | addServes endpoint symbol =>
      some { needs := [.endpoint endpoint, .symbol symbol]
             facts := [.related (.endpoint endpoint) .serves (.symbol symbol)] }
  | createBinding _ => some {}
  | _ => none

/-- The further assertions of an operation. -/
def details : Operation → List Assertion
  | addCalls caller called => called.map fun callee =>
      { needs := [.symbol callee], facts := [.calls .code (.symbol caller) (.symbol callee)] }
  | upsertSystem name parts => parts.map fun part =>
      { needs := [.component part],
        facts := [.related (.system name) .composedOf (.component part)] }
  | addNetworkCalls caller called => called.map fun callee =>
      { callee.assertion with
        facts := .calls .network (.endpoint caller) (.endpoint callee) :: callee.assertion.facts }
  | _ => []

def accepted (operation : Operation) (known : Set Fact) : Set Fact :=
  {fact | ∃ s ∈ operation.head, s.Accepted known ∧
    (fact ∈ s.facts ∨ ∃ t ∈ operation.details, t.Accepted known ∧ fact ∈ t.facts)}

/-- Whether everything that an operation asserts is accepted. -/
def Whole (operation : Operation) (known : Set Fact) : Prop :=
  ∀ s ∈ operation.head, s.Accepted known ∧ ∀ t ∈ operation.details, t.Accepted known

def groups (operation : Operation) (known : Set Fact) : Set (Set Entity) :=
  match operation with
  | createBinding request => {request.group known}
  | _ => ∅

end Operation

/-- The operations that load the sections of a fixture, up to the vulnerabilities. -/
def Fixture.entries (fixture : Fixture) : List Operation :=
  fixture.symbols.map .upsertSymbol ++
  fixture.libraries.map (fun entry => .upsertLibrary entry.library entry.symbols) ++
  fixture.calls.map (fun entry => .addCalls entry.caller entry.callees) ++
  fixture.components.map .upsertComponent ++
  fixture.assets.map .upsertAsset ++
  fixture.hosting.map (fun entry => .hostComponent entry.component entry.asset) ++
  fixture.endpoints.map .upsertEndpoint ++
  fixture.serves.map (fun entry => .addServes entry.endpoint entry.symbol) ++
  fixture.network.map (fun entry => .addNetworkCalls entry.caller entry.callees) ++
  fixture.bindings.map .createBinding ++
  fixture.systems.map (fun entry => .upsertSystem entry.name entry.components)

namespace Operation

open Classical in
/-- The facts known after operations of which the first that is not accepted as a
whole is the last. -/
noncomputable def known (known : Set Fact) : List Operation → Set Fact
  | [] => known
  | operation :: rest =>
      if operation.Whole known then Operation.known (known ∪ operation.accepted known) rest
      else known ∪ operation.accepted known

/-- The facts known after an operation. A fact is forgotten when nodes on which it
depends are removed. -/
noncomputable def performed (operation : Operation) (known : Set Fact) : Set Fact :=
  match operation with
  | loadFixture fixture => Operation.known known fixture.entries
  | _ => {fact ∈ known ∪ operation.accepted known | ∀ kind ∈ operation.removed,
      kind ∉ fact.kinds}

end Operation

end BlastRadius
