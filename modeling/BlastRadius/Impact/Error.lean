import BlastRadius.Propagation.Stage
import BlastRadius.Store.Error

/-!
What can go wrong in an operation on the graph. An operation with many targets goes on after a
failed target and reports all of them together; the targets that succeeded stay.
-/

namespace BlastRadius

/-- A failed operation. -/
inductive ImpactError where
  | notFound (kind : NodeKind) (key : String)
  | invalid (reason : String)
  /-- Some targets failed: how many were tried, and each failed one with its error. -/
  | partialFailure (attempted : Nat) (failures : List (String × ImpactError))
  /-- The store failed outside a stage of a propagation. -/
  | store (error : StoreError)
  /-- The store failed in a stage. The marks set before it stay. -/
  | stageFailed (stage : Stage) (error : StoreError)
  /-- The time was up before a stage could set its marks. -/
  | deadlineExceeded (stage : Stage)
  deriving Repr

namespace ImpactError

mutual

def message : ImpactError → String
  | notFound kind key => s!"{kind} not found: {key}"
  | invalid reason => s!"invalid request: {reason}"
  | partialFailure attempted failures =>
      s!"{failures.length} of {attempted} targets failed" ++ failuresText ": " failures
  | store error => error.message
  | stageFailed stage error => s!"propagation stage {stage} failed: " ++ error.message
  | deadlineExceeded stage => s!"propagation deadline exceeded before stage {stage}"

/-- The texts of failed targets, the first after `lead` and each other one after a semicolon. -/
def failuresText (lead : String) : List (String × ImpactError) → String
  | [] => ""
  | failure :: rest => lead ++ failureText failure ++ failuresText "; " rest

def failureText : String × ImpactError → String
  | (target, error) => target ++ ": " ++ error.message

end

end ImpactError

end BlastRadius
