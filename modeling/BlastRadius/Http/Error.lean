import BlastRadius.Impact.Error
import BlastRadius.Json.Value

/-!
The errors that the service reports, their statuses and their JSON form.
-/

namespace BlastRadius

/-- An error that the service reports. -/
inductive HttpError where
  /-- Something that the request names does not exist. -/
  | notFound (detail : String)
  | badRequest (detail : String)
  /-- Some targets failed, each with its text; the others were dealt with. -/
  | partialFailure (detail : String) (attempted : Nat) (failures : List (String × String))
  /-- The time was up. The marks set before stay. -/
  | deadlineExceeded (detail : String)
  | internal (detail : String)
  deriving DecidableEq, Repr

namespace HttpError

/-- What is said about an error in a response. -/
def detail : HttpError → String
  | notFound detail | badRequest detail | partialFailure detail _ _ | deadlineExceeded detail
  | internal detail => detail

/-- The words for the class of an error. -/
def title : HttpError → String
  | notFound _ => "not found"
  | badRequest _ => "bad request"
  | partialFailure _ _ _ => "partial failure"
  | deadlineExceeded _ => "deadline exceeded"
  | internal _ => "internal error"

/-- The text of an error: the words for its class and its detail. -/
def message (error : HttpError) : String := error.title ++ ": " ++ error.detail

/-- The status of a response with this error. -/
def status : HttpError → Nat
  | notFound _ => 404
  | badRequest _ => 400
  | partialFailure _ _ _ => 422
  | deadlineExceeded _ => 504
  | internal _ => 500

/-- The code of the class of an error. -/
def code : HttpError → String
  | notFound _ => "NOT_FOUND"
  | badRequest _ => "BAD_REQUEST"
  | partialFailure _ _ _ => "PARTIAL_FAILURE"
  | deadlineExceeded _ => "DEADLINE_EXCEEDED"
  | internal _ => "INTERNAL_ERROR"

def failureToJson (failure : String × String) : Json :=
  .obj [("target", .str failure.1), ("error", .str failure.2)]

/-- The further members of an error: what became of the targets. -/
def details : HttpError → List (String × Json)
  | partialFailure _ attempted failures =>
      [("details", .obj [("attempted", .num attempted),
        ("failures", .arr (failures.map failureToJson))])]
  | _ => []

def toJson (error : HttpError) : Json :=
  .obj [("success", .bool false),
    ("error", .obj (("code", .str error.code) :: ("message", .str error.detail) :: error.details))]

def ofStore (error : StoreError) : HttpError :=
  match error with
  | .nodeNotFound _ => notFound error.message
  | .rule _ => badRequest error.message
  | _ => internal error.message

def ofImpact (error : ImpactError) : HttpError :=
  match error with
  | .notFound _ _ => notFound error.message
  | .invalid _ => badRequest error.message
  | .partialFailure attempted failures =>
      partialFailure error.message attempted
        (failures.map fun failure => (failure.1, failure.2.message))
  | .deadlineExceeded _ => deadlineExceeded error.message
  | .store error => ofStore error
  | .stageFailed _ _ => internal error.message

end HttpError

end BlastRadius
