import BlastRadius.Http.Service
import BlastRadius.Proofs.Impact.Rejections
import BlastRadius.Proofs.Impact.Retries

/-!
Requests that are rejected. Whatever requests a service has answered, a further one that names
what does not exist or asks for what is not allowed, and one that cannot be read, leaves the
service as it was. A request fails for some of its targets only if it is one of three, and then
it says how many it had.
-/

namespace BlastRadius

namespace ImpactError

theorem rejects_iff {error : ImpactError} : error.rejects = true ↔
    (HttpError.ofImpact error).status = 400 ∨ (HttpError.ofImpact error).status = 404 := by
  cases error with
  | store error =>
      cases error <;> simp [rejects, HttpError.ofImpact, HttpError.ofStore, HttpError.status]
  | _ => simp [rejects, HttpError.ofImpact, HttpError.status]

theorem exists_of_partial {error : ImpactError}
    (partly : (HttpError.ofImpact error).status = 422) :
    ∃ detail attempted failures, HttpError.ofImpact error =
      .partialFailure detail attempted failures ∧
      error.attempted? = some attempted := by
  cases error with
  | partialFailure attempted failures => exact ⟨_, attempted, _, rfl, rfl⟩
  | store error => cases error <;> cases partly
  | _ => cases partly

end ImpactError

namespace Http

/-- How many targets the body of a request lists, if they are tried one by one. -/
def Request.targets? (request : Request) : Option Nat :=
  if request.method = "POST" then
    match Address.segments request.address with
    | ["systems"] => listed SystemEntry.decode fun entry => entry.components.length
    | ["dependencies", "call-graph"] => listed CallEntry.decode fun entry => entry.callees.length
    | ["dependencies", "network"] => listed NetworkEntry.decode fun entry => entry.callees.length
    | _ => none
  else none
where
  /-- The size of what the body says, if it can be read. -/
  listed {α : Type} (decode : Json.Decoder α) (size : α → Nat) : Option Nat :=
    (Json.decodeText decode request.body).toOption.map size

theorem Resource.segments_eq {segments : List String} {resource : Resource}
    (found : ofSegments segments = some resource) : match resource with
      | systems => segments = ["systems"]
      | calls => segments = ["dependencies", "call-graph"]
      | network => segments = ["dependencies", "network"]
      | fixtures => segments = ["fixtures"]
      | _ => True := by
  unfold ofSegments at found
  split at found
  all_goals first
    | contradiction
    | (cases found; first | rfl | trivial)
    | (split at found <;> cases found; trivial)

theorem Request.posted_of_targets {request : Request} {n : Nat}
    (listed : request.targets? = some n) :
    request.method = "POST" := by
  by_contra other
  rw [targets?, if_neg other] at listed
  cases listed

namespace Plan

/-- The refusal of a body that is not what the resource takes. -/
def misshapen : Response := .ofText 422 "the body is not of the expected shape"

variable {defaults : PropagationConfig} {request : Request} {operation : Operation}
  {response : Response} {resource : Resource} {α : Type} {decode : Json.Decoder α}
  {make : α → Operation}

theorem ofBody_perform (plan : ofBody request decode make = .perform operation) :
    ∃ value, Json.decodeText decode request.body = .ok value ∧ operation = make value := by
  rw [ofBody] at plan
  split at plan
  · split at plan
    · rename_i value decoded
      cases plan
      exact ⟨value, decoded, rfl⟩
    all_goals cases plan
  · cases plan

theorem ofBody_answer (plan : ofBody request decode make = .answer response)
    (status : response.status = 422) : response = misshapen := by
  rw [ofBody] at plan
  split at plan
  · split at plan
    · cases plan
    · cases plan
      cases status
    · cases plan
      rfl
  · cases plan
    cases status

/-- A plan either performs an operation that tries no targets one by one and loads no fixture, or it
refuses the address. -/
def Single (plan : Plan) : Prop :=
  (∃ operation, plan = .perform operation ∧ operation.targets? = none ∧
    ∀ fixture, operation ≠ .loadFixture fixture) ∨
  ∃ refusal, plan = .answer refusal ∧ refusal.status = 400

namespace Single

theorem ofSegment {segment : String} {next : String → Plan}
    (each : ∀ text, (next text).Single) :
    (Plan.ofSegment segment next).Single := by
  rw [Plan.ofSegment]
  split
  · exact each _
  · exact Or.inr ⟨_, rfl, rfl⟩

theorem ofArtifact {name version : String} {about : Artifact → Operation}
    (each : ∀ artifact, (perform (about artifact)).Single) :
    (Plan.ofArtifact name version about).Single :=
  ofSegment fun _ => ofSegment fun _ => each _

theorem ofKind (text : String) : (Plan.ofKind text).Single := by
  rw [Plan.ofKind]
  split
  · exact Or.inl ⟨_, rfl, rfl, nofun⟩
  · exact Or.inr ⟨_, rfl, rfl⟩

theorem ofDomain (text : String) : (Plan.ofDomain text).Single := by
  rw [Plan.ofDomain, Domain.parse]
  split
  · exact Or.inl ⟨_, rfl, rfl, nofun⟩
  · rename_i error refused
    split at refused <;> cases refused
    exact Or.inr ⟨_, rfl, rfl⟩

theorem of_perform {plan : Plan} (single : plan.Single) (same : plan = .perform operation) :
    operation.targets? = none ∧ ∀ fixture, operation ≠ .loadFixture fixture := by
  rcases single with ⟨_, performs, alone⟩ | ⟨_, refused, _⟩
  · cases performs.symm.trans same
    exact alone
  · cases refused.symm.trans same

theorem of_answer {plan : Plan} (single : plan.Single) (same : plan = .answer response) :
    response.status = 400 := by
  rcases single with ⟨_, performs, _⟩ | ⟨_, refused, bad⟩
  · cases performs.symm.trans same
  · cases refused.symm.trans same
    exact bad

end Single

theorem single_of_bodiless (bodiless : resource.method ≠ "POST") (other : resource ≠ .health) :
    (ofResource defaults request resource).Single := by
  cases resource with
  | health => exact absurd rfl other
  | marked kind => exact .ofSegment .ofKind
  | domain name => exact .ofSegment .ofDomain
  | library | component => exact .ofArtifact fun _ => Or.inl ⟨_, rfl, rfl, nofun⟩
  | callees symbol => exact .ofSegment fun _ => Or.inl ⟨_, rfl, rfl, nofun⟩
  | marks | radius | flowchart | graph => exact Or.inl ⟨_, rfl, rfl, nofun⟩
  | _ => exact absurd rfl bodiless

theorem ofRequest_cases (defaults : PropagationConfig) (request : Request) :
    (∃ status, ofRequest defaults request = .answer (.bare status) ∧ status ≠ 422) ∨
    ∃ resource, Resource.ofSegments (Address.segments request.address) = some resource ∧
      (resource.method = "POST" → request.method = "POST") ∧
      ofRequest defaults request = ofResource defaults request resource := by
  rw [ofRequest]
  split
  · exact Or.inl ⟨200, rfl, by decide⟩
  · split
    · exact Or.inl ⟨404, rfl, by decide⟩
    · rename_i resource found
      dsimp only
      by_cases asked : (if request.method = "HEAD" then "GET" else request.method) = resource.method
      · rw [if_pos asked]
        refine Or.inr ⟨resource, found, fun post => ?_, rfl⟩
        rw [post] at asked
        split at asked
        · exact absurd asked (by decide)
        · exact asked
      · rw [if_neg asked]
        exact Or.inl ⟨405, rfl, by decide⟩

/-- What is performed for a resource. Only three have targets that are tried one by one. -/
theorem perform_cases (plan : ofResource defaults request resource = .perform operation) :
    match resource with
    | .systems => ∃ entry, Json.decodeText SystemEntry.decode request.body = .ok entry ∧
        operation = .upsertSystem entry.name entry.components
    | .calls => ∃ entry, Json.decodeText CallEntry.decode request.body = .ok entry ∧
        operation = .addCalls entry.caller entry.callees
    | .network => ∃ entry, Json.decodeText NetworkEntry.decode request.body = .ok entry ∧
        operation = .addNetworkCalls entry.caller entry.callees
    | .fixtures => operation.targets? = none
    | _ => operation.targets? = none ∧ ∀ fixture, operation ≠ .loadFixture fixture := by
  cases resource with
  | systems | calls | network => exact ofBody_perform plan
  | fixtures =>
      obtain ⟨_, _, rfl⟩ := ofBody_perform plan
      rfl
  | propagations =>
      obtain ⟨asked, _, rfl⟩ := ofBody_perform plan
      dsimp only [PropagationRequest.operation]
      split <;> exact ⟨rfl, nofun⟩
  | health => cases plan
  | marked | domain | library | component | callees | marks | radius | flowchart | graph =>
      refine (single_of_bodiless ?_ ?_).of_perform plan
      · simp [Resource.method]
      · exact nofun
  | _ =>
      obtain ⟨_, _, rfl⟩ := ofBody_perform plan
      exact ⟨rfl, nofun⟩

theorem misshapen_of_answer (plan : ofResource defaults request resource = .answer response)
    (status : response.status = 422) : response = misshapen ∧ resource.method = "POST" := by
  cases resource with
  | health =>
      cases plan
      cases status
  | marked | domain | library | component | callees | marks | radius | flowchart | graph =>
      have bad : response.status = 400 := by
        refine (single_of_bodiless ?_ ?_).of_answer plan
        · simp [Resource.method]
        · exact nofun
      cases bad.symm.trans status
  | _ => exact ⟨ofBody_answer plan status, rfl⟩

/-- A request is performed with several targets, or as a fixture, only if it says so. -/
theorem targets?_of_perform (plan : ofRequest defaults request = .perform operation) {n : Nat}
    (tries : operation.targets? = some n) : request.targets? = some n := by
  rcases ofRequest_cases defaults request with ⟨_, bare, _⟩ |
    ⟨resource, found, posted, same⟩
  · cases bare.symm.trans plan
  · have performs := perform_cases (same.symm.trans plan)
    have segments := Resource.segments_eq found
    have listed {α : Type} {decode : Json.Decoder α} {value : α} {size : α → Nat}
        (decoded : Json.decodeText decode request.body = .ok value) :
        Request.targets?.listed request decode size = some (size value) := by
      rw [Request.targets?.listed, decoded]
      rfl
    cases resource with
    | systems | calls | network =>
        obtain ⟨entry, decoded, rfl⟩ := performs
        rw [Request.targets?, if_pos (posted rfl), segments]
        exact (listed decoded).trans tries
    | fixtures => cases performs.symm.trans tries
    | _ => cases performs.1.symm.trans tries

theorem fixtures_of_perform {fixture : Fixture}
    (plan : ofRequest defaults request = .perform (.loadFixture fixture)) :
    request.method = "POST" ∧ Address.segments request.address = ["fixtures"] := by
  rcases ofRequest_cases defaults request with ⟨_, bare, _⟩ |
    ⟨resource, found, posted, same⟩
  · cases bare.symm.trans plan
  · have performs := perform_cases (same.symm.trans plan)
    have segments := Resource.segments_eq found
    cases resource with
    | fixtures => exact ⟨posted rfl, segments⟩
    | systems | calls | network =>
        obtain ⟨_, _, ⟨⟩⟩ := performs
    | _ => exact absurd rfl (performs.2 fixture)

end Plan

theorem status_responseTo_ok (runId : String) (operation : Operation) (answer : Answer) :
    (responseTo runId operation (.ok answer)).status = 200 := by
  cases answer <;> rfl

namespace Service

/-- The service after requests. Each comes with the name that a report of a
propagation would show. -/
def after (service : Service) (requests : List (String × Request)) : Service :=
  requests.foldl (fun service asked => (service.respond asked.1 asked.2).2) service

theorem after_append (service : Service) (requests : List (String × Request))
    (asked : String × Request) : service.after (requests ++ [asked]) =
      ((service.after requests).respond asked.1 asked.2).2 := by
  rw [after, List.foldl_append]
  rfl

variable {service : Service} {operations : List Operation} {request : Request} {runId : String}

/-- The database behind a service is what some operations led to. -/
def Reaches (service : Service) (operations : List Operation) : Prop :=
  service.state = ⟨Medium.database.reached operations, 0⟩

theorem Reaches.execute (reaches : service.Reaches operations) (runId : String)
    (operation : Operation) : service.execute runId (.perform operation) =
      (responseTo runId operation (operation.on Database.store
        (Medium.database.reached operations)).1,
        { service with state := ⟨Medium.database.reached (operations ++ [operation]),
          0⟩ }) := by
  have ran := operation.on_retrying .database service.settings.retry service.state
  rw [reaches] at ran
  rw [Service.execute, Service.store, reaches, Medium.reached_append]
  exact congrArg (fun answered => (responseTo runId operation answered.1,
    { service with state := answered.2 })) ran

theorem Reaches.respond (reaches : service.Reaches operations) (runId : String)
    (request : Request) :
    ∃ operations, (service.respond runId request).2.Reaches operations := by
  change ∃ operations, (service.execute runId (.ofRequest _ request)).2.Reaches operations
  cases Plan.ofRequest service.settings.propagation request with
  | answer response => exact ⟨operations, reaches⟩
  | perform operation =>
      rw [reaches.execute]
      exact ⟨operations ++ [operation], rfl⟩

theorem exists_reaches (settings : Settings) (persistent : Bool)
    (requests : List (String × Request)) :
    ∃ operations, (after { settings, persistent } requests).Reaches operations := by
  induction requests using List.reverseRecOn with
  | nil => exact ⟨[], rfl⟩
  | append_singleton before asked ih =>
      obtain ⟨operations, reaches⟩ := ih
      rw [after_append]
      exact reaches.respond asked.1 asked.2

theorem status_respond : (service.respond runId request).1.status =
    (service.execute runId (.ofRequest service.settings.propagation request)).1.status := by
  rw [respond]
  dsimp only
  split <;> rfl

theorem respond_posted (posted : request.method = "POST") : service.respond runId request =
    service.execute runId (.ofRequest service.settings.propagation request) := by
  rw [respond, posted]
  rfl

theorem rejected_of_status {operation : Operation} {result : Except ImpactError Answer}
    (status : (responseTo runId operation result).status = 400 ∨
      (responseTo runId operation result).status = 404) : Rejected result := by
  cases result with
  | ok answer =>
      rw [status_responseTo_ok] at status
      omega
  | error error => exact ImpactError.rejects_iff.mpr status

theorem Reaches.unharmed (reaches : service.Reaches operations) {operation : Operation}
    (single : ∀ fixture, operation ≠ .loadFixture fixture)
    (status : (responseTo runId operation
        (operation.on Database.store (Medium.database.reached operations)).1).status = 400 ∨
      (responseTo runId operation
        (operation.on Database.store (Medium.database.reached operations)).1).status = 404) :
    { service with state := ⟨Medium.database.reached (operations ++ [operation]), 0⟩ } =
      service := by
  have fits : Medium.database.Fits (operations ++ [operation]) := fun _ _ _ => trivial
  have same := Medium.reached_of_rejected fits single (rejected_of_status status)
  rw [same, ← reaches]

theorem partial_of_status {operation : Operation}
    (single : ∀ fixture, operation ≠ .loadFixture fixture) {s : Database}
    (status : (responseTo runId operation (operation.on Database.store s).1).status = 422) :
    ∃ detail attempted failures, responseTo runId operation (operation.on Database.store s).1 =
      .ofError (.partialFailure detail attempted failures) ∧
        operation.targets? = some attempted := by
  rcases ran : (operation.on Database.store s).1 with error | answer
  · rw [ran] at status
    obtain ⟨detail, attempted, failures, same, tried⟩ := ImpactError.exists_of_partial status
    refine ⟨detail, attempted, failures, congrArg Response.ofError same, ?_⟩
    exact Operation.attempted_eq_targets single ran tried
  · rw [ran, status_responseTo_ok] at status
    cases status

/-- Whatever requests were answered before, a request that is rejected or cannot be read changes
nothing of the service. A failure of some targets is answered only to a request that lists them,
with their number. Only a fixture may have been recorded in part. -/
theorem rejected_request_changes_nothing (settings : Settings) (persistent : Bool)
    (requests : List (String × Request)) (runId : String) (request : Request)
    (other : ¬ (request.method = "POST" ∧ Address.segments request.address = ["fixtures"])) :
    let service := after { settings, persistent } requests
    let answered := service.respond runId request
    (answered.1.status = 400 ∨ answered.1.status = 404 ∨
      (∃ refusal, Plan.ofRequest service.settings.propagation request = .answer refusal) →
        answered.2 = service) ∧
    (answered.1.status = 422 → answered.1 = Plan.misshapen ∨
      ∃ detail attempted failures,
        answered.1 = .ofError (.partialFailure detail attempted failures) ∧
        request.targets? = some attempted) := by
  intro service answered
  obtain ⟨operations, reaches⟩ := exists_reaches settings persistent requests
  have status : answered.1.status = _ := status_respond
  have changed : answered.2 =
      (service.execute runId (.ofRequest service.settings.propagation request)).2 := rfl
  cases plan : Plan.ofRequest service.settings.propagation request with
  | answer response =>
      rw [plan] at status changed
      refine ⟨fun _ => changed, fun misshapen => ?_⟩
      rcases Plan.ofRequest_cases service.settings.propagation request with
        ⟨bare, same, fine⟩ | ⟨resource, _, posted, same⟩
      · cases same.symm.trans plan
        exact absurd (status.symm.trans misshapen) fine
      · obtain ⟨rfl, post⟩ :=
          Plan.misshapen_of_answer (same.symm.trans plan) (status.symm.trans misshapen)
        have answer : answered = _ := respond_posted (posted post)
        rw [answer, plan]
        exact Or.inl rfl
  | perform operation =>
      have single (fixture : Fixture) : operation ≠ .loadFixture fixture := by
        rintro rfl
        exact other (Plan.fixtures_of_perform plan)
      rw [plan, reaches.execute] at status changed
      constructor
      · intro refused
        rcases or_assoc.mpr refused with bad | ⟨_, ⟨⟩⟩
        rw [status] at bad
        exact changed.trans (reaches.unharmed single bad)
      · intro partly
        obtain ⟨detail, attempted, failures, same, tries⟩ :=
          partial_of_status single (status.symm.trans partly)
        have listed := Plan.targets?_of_perform plan tries
        have answer : answered = _ := respond_posted (Request.posted_of_targets listed)
        rw [answer, plan, reaches.execute]
        exact Or.inr ⟨detail, attempted, failures, same, listed⟩

/-- The caller of one request is unknown, and so is one of the callees of the other. -/
theorem rejected_request_changes_nothing_of_calls :
    let posted (address : String) (body : Json) : Request :=
      ⟨"POST", address, some "application/json", body.compact⟩
    let calls (entry : CallEntry) : Request := posted "/dependencies/call-graph" entry.toJson
    let library : LibraryEntry := ⟨⟨"parser", "1.0"⟩, ["parse"]⟩
    let requests := [("first", posted "/libraries" library.toJson)]
    let service := after {} requests
    let unknown := service.respond "second" (calls ⟨"read", ["parse"]⟩)
    let partly := service.respond "second" (calls ⟨"parse", ["parse", "read"]⟩)
    unknown.1.status = 404 ∧ unknown.2 = service ∧ partly.1.status = 422 ∧
    ∃ detail failures, partly.1 = .ofError (.partialFailure detail 2 failures) := by
  intro posted calls library requests service unknown partly
  have missing : unknown.1.status = 404 := by decide +kernel
  have failed : partly.1.status = 422 := by decide +kernel
  have json : partly.1.contentType = some Response.jsonType := by decide +kernel
  have two : (calls ⟨"parse", ["parse", "read"]⟩).targets? = some 2 := by decide +kernel
  have elsewhere : Address.segments "/dependencies/call-graph" ≠ ["fixtures"] := by decide +kernel
  have other (entry : CallEntry) : ¬ ((calls entry).method = "POST" ∧
      Address.segments (calls entry).address = ["fixtures"]) := fun ⟨_, same⟩ => elsewhere same
  have claimed (entry : CallEntry) :=
    rejected_request_changes_nothing {} false requests "second" (calls entry) (other entry)
  refine ⟨missing, (claimed _).1 (Or.inr (Or.inl missing)), failed, ?_⟩
  rcases (claimed _).2 failed with misshapen | ⟨detail, attempted, failures, answer, listed⟩
  · change partly.1 = _ at misshapen
    rw [misshapen] at json
    exact absurd json (by decide)
  · obtain rfl : 2 = attempted := Option.some.inj (two.symm.trans listed)
    exact ⟨detail, failures, answer⟩

end Service

end Http

end BlastRadius
