import BlastRadius.Impact.Error

/-!
The outcomes of an operation with many targets.
-/

namespace BlastRadius

/-- The values of the targets that succeeded, and the targets that failed with their errors. -/
structure Outcomes (α : Type) where
  successes : List α := []
  failures : List (String × ImpactError) := []
  deriving Repr

namespace Outcomes

variable {α : Type}

def record (outcomes : Outcomes α) (target : String) (result : Except ImpactError α) :
    Outcomes α :=
  match result with
  | .ok value => { outcomes with successes := outcomes.successes ++ [value] }
  | .error error => { outcomes with failures := outcomes.failures ++ [(target, error)] }

def attempted (outcomes : Outcomes α) : Nat :=
  outcomes.successes.length + outcomes.failures.length

/-- The outcomes of one operation followed by those of another. -/
def merge (first second : Outcomes α) : Outcomes α :=
  ⟨first.successes ++ second.successes, first.failures ++ second.failures⟩

/-- All values, or one error that lists every failed target. -/
def result (outcomes : Outcomes α) : Except ImpactError (List α) :=
  match outcomes.failures with
  | [] => .ok outcomes.successes
  | failures => .error (.partialFailure outcomes.attempted failures)

end Outcomes

end BlastRadius
