import BlastRadius.Http.Error

/-!
Requests and responses.
-/

namespace BlastRadius.Http

/-- A request. -/
structure Request where
  method : String
  address : String
  contentType : Option String := none
  body : String := ""
  deriving DecidableEq, Repr

/-- The body of a response. -/
inductive Body where
  | empty
  | text (content : String)
  | json (value : Json)
  deriving Repr

/-- A response. -/
structure Response where
  status : Nat
  contentType : Option String
  body : Body
  deriving Repr

namespace Response

def jsonType : String := "application/json"

def textType : String := "text/plain; charset=utf-8"

def bare (status : Nat) : Response := ⟨status, none, .empty⟩

def ofJson (status : Nat) (value : Json) : Response := ⟨status, some jsonType, .json value⟩

def ofText (status : Nat) (content : String) : Response :=
  ⟨status, some textType, .text content⟩

/-- The response to a request that led to an error. -/
def ofError (error : HttpError) : Response := ofJson error.status error.toJson

def withoutBody (response : Response) : Response := { response with body := .empty }

end Response

end BlastRadius.Http
