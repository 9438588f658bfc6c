import BlastRadius.Http.Resource
import BlastRadius.Http.Settings
import BlastRadius.Impact.Written
import BlastRadius.Store.Database

/-!
The service: a database and the answering of requests. Requests are answered one at a time.
-/

namespace BlastRadius.Http

/-- A running service. -/
structure Service where
  settings : Settings := {}
  /-- Whether the database outlives the service. -/
  persistent : Bool := false
  state : Retrying Database := ⟨{}, 0⟩

/-- The body that an answer is written in. An answer about a kind or symbol names it. -/
def bodyOf (runId : String) : Operation → Answer → Json
  | .marked kind, answer => .obj [("kind", kind.toJson), ("nodes", answer.toJson runId)]
  | .callees symbol, answer => .obj [("symbol", .str symbol), ("callees", answer.toJson runId)]
  | _, answer => answer.toJson runId

/-- The response to a request that led to an operation. -/
def responseTo (runId : String) (operation : Operation) :
    Except ImpactError Answer → Response
  | .ok (.text content) => .ofText 200 content
  | .ok answer => .ofJson 200 (bodyOf runId operation answer)
  | .error error => .ofError (.ofImpact error)

namespace Service

def store (service : Service) : Store (Retrying Database) :=
  Retrying.store service.settings.retry Database.store

def execute (runId : String) (service : Service) : Plan → Response × Service
  | .answer response => (response, service)
  | .perform operation =>
      let answered := operation.on service.store service.state
      (responseTo runId operation answered.1, { service with state := answered.2 })

/-- Answers a request. A report of a propagation shows `runId`. -/
def respond (runId : String) (service : Service) (request : Request) : Response × Service :=
  let answered := service.execute runId (Plan.ofRequest service.settings.propagation request)
  (if request.method = "HEAD" then answered.1.withoutBody else answered.1, answered.2)

/-- The service after it was stopped and started again. -/
def restarted (service : Service) : Service :=
  let db : Database := if service.persistent then service.state.inner.reopened else {}
  { service with state := ⟨db, 0⟩ }

end Service

end BlastRadius.Http
