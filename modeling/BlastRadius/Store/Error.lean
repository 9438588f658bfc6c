import BlastRadius.Graph.Error

/-!
What can go wrong in a store, and which failures are worth another attempt.
-/

namespace BlastRadius

/-- A failed store operation. -/
inductive StoreError where
  /-- The database engine failed, with its result code if it gave one. -/
  | engine (code : Option Int) (detail : String)
  /-- A stored node is no JSON form of a node. -/
  | serialization (detail : String)
  /-- The tables could not be brought up to date. -/
  | migration (detail : String)
  | nodeNotFound (id : NodeId)
  | uniqueViolation (key : String)
  /-- Another rule of the data model is violated. -/
  | rule (error : GraphError)
  /-- The store cannot serve the request now. -/
  | unavailable (reason : String)
  /-- The row of a new node has a number that is no identifier. -/
  | idOverflow (row : Int)
  | noTransaction
  /-- The last of many attempts failed like those before it. -/
  | retriesExhausted (attempts : Nat) (last : StoreError)
  deriving DecidableEq, Repr

namespace StoreError

/-- The store error for a violated rule of the data model. -/
def ofGraph : GraphError → StoreError
  | .duplicateKey key => uniqueViolation key
  | .nodeNotFound id => nodeNotFound id
  | error => rule error

/-- The result codes of a database that is busy or locked. -/
def busyCodes : List Int := [5, 6]

/-- A failure worth another attempt: the store is unavailable, or its database is busy or locked.
The primary result code is the low byte of a code. -/
def isTransient : StoreError → Bool
  | unavailable _ => true
  | engine (some code) _ => busyCodes.contains (code % 256)
  | _ => false

def isUniqueViolation : StoreError → Bool
  | uniqueViolation _ => true
  | _ => false

def message : StoreError → String
  | engine _ detail => s!"sqlite error: {detail}"
  | serialization detail => s!"serialization error: {detail}"
  | migration detail => s!"migration error: {detail}"
  | nodeNotFound id => s!"node not found: {id}"
  | uniqueViolation key => s!"unique constraint violated: {key}"
  | rule error => error.message
  | unavailable reason => s!"store unavailable: {reason}"
  | idOverflow row => s!"node id {row} exceeds the supported range"
  | noTransaction => "no open transaction"
  | retriesExhausted attempts last => s!"gave up after {attempts} attempts: " ++ last.message

end StoreError

end BlastRadius
