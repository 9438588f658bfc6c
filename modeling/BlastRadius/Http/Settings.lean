import BlastRadius.Http.Error
import BlastRadius.Propagation.Run
import BlastRadius.Store.Retry
import BlastRadius.Text.Blank
import BlastRadius.Text.Integer

/-!
The settings of the service, read from named variables. A variable that is not set leaves its
setting as it is; one whose value cannot be read is an error. Blanks around a value do not count,
except in the path of the database.
-/

namespace BlastRadius.Http

/-- The settings of the service. -/
structure Settings where
  databasePath : String := "blastgraph.db"
  port : Nat := 3000
  retry : RetryPolicy := {}
  /-- The options of a propagation whose request leaves them open. -/
  propagation : PropagationConfig := {}
  deriving DecidableEq, Repr

namespace Settings

def toJson (settings : Settings) : Json :=
  .obj [("db_path", .str settings.databasePath), ("port", .num settings.port),
    ("retry", settings.retry.toJson), ("propagation", settings.propagation.toJson)]

/-- Reads `true` or `false`. -/
def truth? (text : String) : Option Bool :=
  if text = "true" then some true else if text = "false" then some false else none

/-- The value of a variable, or `default` if it is not set. -/
def valueOf {α : Type} (lookup : String → Option String) (name : String)
    (read? : String → Option α) (default : α) : Except HttpError α :=
  match lookup name with
  | none => .ok default
  | some raw =>
      match read? (Text.trim raw) with
      | some value => .ok value
      | none => .error (.badRequest s!"invalid value for {name}: '{raw}'")

/-- The settings that the variables give. The first variable that cannot be read is reported. -/
def ofVariables (lookup : String → Option String) : Except HttpError Settings := do
  let usual : Settings := {}
  let databasePath := (lookup "BLASTGRAPH_DB_PATH").getD usual.databasePath
  let port ← valueOf lookup "BLASTGRAPH_PORT" (Text.naturalBelow? UInt16.size) usual.port
  let attempts ← valueOf lookup "BLASTGRAPH_RETRY_ATTEMPTS" (Text.naturalBelow? UInt32.size)
    usual.retry.maxRetries
  let backoff ← valueOf lookup "BLASTGRAPH_RETRY_BACKOFF_MS" (Text.naturalBelow? UInt64.size)
    usual.retry.initialBackoffMs
  let converge ← valueOf lookup "BLASTGRAPH_CONVERGE" truth? usual.propagation.converge
  let deadline ← valueOf lookup "BLASTGRAPH_DEADLINE_MS"
    (fun text => some <$> Text.naturalBelow? UInt64.size text) usual.propagation.deadlineMs
  return {
    databasePath := databasePath
    port := port
    retry := { usual.retry with maxRetries := attempts, initialBackoffMs := backoff }
    propagation := { converge, deadlineMs := deadline } }

end Settings

end BlastRadius.Http
