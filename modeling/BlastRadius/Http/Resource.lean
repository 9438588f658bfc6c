import BlastRadius.Http.Address
import BlastRadius.Http.MediaType
import BlastRadius.Http.Message
import BlastRadius.Impact.Operation

/-!
What the service offers: its resources, their addresses and methods, and what a request for each of
them asks for.
-/

namespace BlastRadius.Http

open Json (Decoder RecordReader)

/-- A resource of the service. Each can be asked for by one method. -/
inductive Resource where
  | health
  | libraries
  | components
  | assets
  | systems
  | hosting
  | calls
  | fixtures
  | endpoints
  | network
  | serves
  | bindings
  | vulnerabilities
  | propagations
  | marks
  | marked (kind : String)
  | radius
  | library (name version : String)
  | component (name version : String)
  | callees (symbol : String)
  | flowchart
  | graph
  | domain (name : String)
  deriving DecidableEq, Repr

namespace Resource

/-- The resource at an address. The last segment may not be empty. -/
def ofSegments : List String → Option Resource
  | ["health"] => some health
  | ["libraries"] => some libraries
  | ["components"] => some components
  | ["assets"] => some assets
  | ["systems"] => some systems
  | ["hosting"] => some hosting
  | ["dependencies", "call-graph"] => some calls
  | ["fixtures"] => some fixtures
  | ["endpoints"] => some endpoints
  | ["dependencies", "network"] => some network
  | ["serves"] => some serves
  | ["bindings"] => some bindings
  | ["vulnerabilities"] => some vulnerabilities
  | ["propagations"] => some propagations
  | ["marks"] => some marks
  | ["marked", kind] => if kind.isEmpty then none else some (marked kind)
  | ["blast-radius"] => some radius
  | ["libraries", name, version] => if version.isEmpty then none else some (library name version)
  | ["components", name, version] =>
      if version.isEmpty then none else some (component name version)
  | ["symbols", symbol, "callees"] => some (callees symbol)
  | ["export", "mermaid"] => some flowchart
  | ["graph"] => some graph
  | ["graph", name] => if name.isEmpty then none else some (domain name)
  | _ => none

/-- The method by which a resource is asked for. -/
def method : Resource → String
  | libraries | components | assets | systems | hosting | calls | fixtures | endpoints | network
  | serves | bindings | vulnerabilities | propagations => "POST"
  | marks | graph | domain _ => "DELETE"
  | health | marked _ | radius | library _ _ | component _ _ | callees _ | flowchart => "GET"

end Resource

/-- A request for a propagation. Options that it leaves open are those of the service. -/
structure PropagationRequest where
  identity : Option String := none
  /-- Whether to go on from the marks there are instead of from a vulnerability. -/
  fromCurrentMarks : Bool := false
  converge : Option Bool := none
  deadlineMs : Option Nat := none
  deriving DecidableEq, Repr

namespace PropagationRequest

def decode : Decoder PropagationRequest :=
  RecordReader.decode <|
    ((RecordReader.fieldOr "identity" (Decoder.nullable Decoder.string) none).and <|
      (RecordReader.fieldOr "from_current_marks" Decoder.bool false).and <|
      (RecordReader.fieldOr "converge" (Decoder.nullable Decoder.bool) none).and
      (RecordReader.fieldOr "deadline_ms"
        (Decoder.nullable (Decoder.natBelow UInt64.size)) none)).map
        fun (identity, fromCurrentMarks, converge, deadlineMs) =>
          { identity, fromCurrentMarks, converge, deadlineMs }

def operation (defaults : PropagationConfig) (request : PropagationRequest) : Operation :=
  let config : PropagationConfig := { defaults with
    converge := request.converge.getD defaults.converge
    deadlineMs := request.deadlineMs <|> defaults.deadlineMs }
  if request.fromCurrentMarks then .propagate config else .run config request.identity

end PropagationRequest

/-- What is to be done about a request. -/
inductive Plan where
  | answer (response : Response)
  | perform (operation : Operation)

namespace Plan

/-- The operation that the body of a request asks for. The body has to be JSON
of the right shape. -/
def ofBody {α : Type} (request : Request) (decode : Decoder α) (operation : α → Operation) :
    Plan :=
  if (request.contentType.bind MediaType.read?).any MediaType.isJson then
    match Json.decodeText decode request.body with
    | .ok value => perform (operation value)
    | .error .malformed => answer (.ofText 400 "the body is no JSON")
    | .error .mismatch => answer (.ofText 422 "the body is not of the expected shape")
  else answer (.ofText 415 "the body has to be JSON")

/-- The plan for the text that a segment stands for. -/
def ofSegment (segment : String) (plan : String → Plan) : Plan :=
  match Address.decoded? segment with
  | some text => plan text
  | none => answer (.ofText 400 "the address is no text")

/-- The plan for the artifact that two segments stand for. -/
def ofArtifact (name version : String) (operation : Artifact → Operation) : Plan :=
  ofSegment name fun name =>
    ofSegment version fun version => perform (operation ⟨name, version⟩)

def ofKind (text : String) : Plan :=
  match NodeKind.parse text with
  | .ok kind => perform (.marked kind)
  | .error error => answer (.ofError (.badRequest error.message))

/-- The plan for the removal of a domain. -/
def ofDomain (text : String) : Plan :=
  match Domain.parse text with
  | .ok domain => perform (.resetDomain domain)
  | .error error => answer (.ofError (.ofImpact error))

/-- The plan for a resource that is asked for by its method. -/
def ofResource (defaults : PropagationConfig) (request : Request) : Resource → Plan
  | .health => answer (.ofJson 200 (.obj [("status", .str "ok")]))
  | .libraries => ofBody request LibraryEntry.decode fun e => .upsertLibrary e.library e.symbols
  | .components => ofBody request Artifact.decode .upsertComponent
  | .assets => ofBody request Artifact.decode .upsertAsset
  | .systems => ofBody request SystemEntry.decode fun e => .upsertSystem e.name e.components
  | .hosting => ofBody request HostingEntry.decode fun e => .hostComponent e.component e.asset
  | .calls => ofBody request CallEntry.decode fun e => .addCalls e.caller e.callees
  | .fixtures => ofBody request Fixture.decode .loadFixture
  | .endpoints => ofBody request EndpointRef.decode .upsertEndpoint
  | .network => ofBody request NetworkEntry.decode fun e => .addNetworkCalls e.caller e.callees
  | .serves => ofBody request ServesEntry.decode fun e => .addServes e.endpoint e.symbol
  | .bindings => ofBody request BindingRequest.decode .createBinding
  | .vulnerabilities =>
      ofBody request VulnerabilityEntry.decode fun e => .createVulnerability e.identity e.symbol
  | .propagations => ofBody request PropagationRequest.decode fun r => r.operation defaults
  | .marks => perform .resetMarks
  | .marked kind => ofSegment kind ofKind
  | .radius => perform .radius
  | .library name version => ofArtifact name version .library
  | .component name version => ofArtifact name version .component
  | .callees symbol => ofSegment symbol fun text => perform (.callees text)
  | .flowchart => perform .flowchart
  | .graph => perform .reset
  | .domain name => ofSegment name ofDomain

/-- The plan for a request. Whoever asks for the headers alone asks by the method that would get
the body too, and whoever asks for the options of any address is told that it exists. -/
def ofRequest (defaults : PropagationConfig) (request : Request) : Plan :=
  if request.method = "OPTIONS" then answer (.bare 200)
  else
    match Resource.ofSegments (Address.segments request.address) with
    | none => answer (.bare 404)
    | some resource =>
        let method := if request.method = "HEAD" then "GET" else request.method
        if method = resource.method then ofResource defaults request resource
        else answer (.bare 405)

end Plan

end BlastRadius.Http
