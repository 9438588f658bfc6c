import BlastRadius.Command.Switch
import BlastRadius.Store.Retry

/-!
Commands and their reading from the arguments of the command line.
-/

namespace BlastRadius

/-- What the command line can be asked to do. -/
inductive Command where
  | load (fixture : String)
  | vulnerability (symbol : String) (identity : Option String)
  /-- Propagates, from the current marks or from a vulnerability. -/
  | propagate (identity : Option String) (fromCurrentMarks converge : Bool)
      (deadlineMs : Option Nat)
  /-- Lists the marked nodes of a kind, or all of them. -/
  | marked (kind : Option String)
  /-- Shows the graph as a flowchart, or writes it to a file. -/
  | flowchart (output : Option String)
  | resetMarks
  /-- Removes the whole graph, or the nodes of a domain. -/
  | reset (domain : Option String)
  deriving DecidableEq, Repr

/-- The name of a command. -/
inductive Verb where
  | load
  | vulnerability
  | propagate
  | marked
  | flowchart
  | resetMarks
  | reset
  deriving DecidableEq, Repr

namespace Verb

def all : List Verb := [load, vulnerability, propagate, marked, flowchart, resetMarks, reset]

def name : Verb → String
  | load => "load"
  | vulnerability => "vulnerability"
  | propagate => "propagate"
  | marked => "marked"
  | flowchart => "export"
  | resetMarks => "reset-marks"
  | reset => "reset"

def ofName? (text : String) : Option Verb :=
  all.find? fun verb => verb.name == text

/-- The switches of a verb beside the general ones. -/
def switches : Verb → List Switch
  | vulnerability => [.identity]
  | propagate => [.identity, .fromCurrentMarks, .converge, .deadline]
  | flowchart => [.output]
  | reset => [.domain]
  | load | marked | resetMarks => []

/-- The command that a verb names, with the values of its switches and its operands. The operands
have to be as many as the command needs, and the path of a fixture may not be empty. -/
def command? (value? : Switch → Option String) : Verb → List String → Option Command
  | load, [path] => if path.isEmpty then none else some (.load path)
  | vulnerability, [symbol] => some (.vulnerability symbol (value? .identity))
  | propagate, [] =>
      let identity := value? .identity
      let current := (value? .fromCurrentMarks).isSome
      if identity.isSome && current then none
      else
        some (.propagate identity current (value? .converge).isSome
          ((value? .deadline).bind Switch.milliseconds?))
  | marked, [] => some (.marked none)
  | marked, [kind] => some (.marked (some kind))
  | flowchart, [] => some (.flowchart (value? .output))
  | resetMarks, [] => some .resetMarks
  | reset, [] => some (.reset (value? .domain))
  | _, _ => none

end Verb

/-- A command and the database that it is about. -/
structure Invocation where
  databaseName : String
  retry : RetryPolicy
  command : Command
  deriving DecidableEq, Repr

namespace Invocation

/-- The location of the database if none is given. -/
def usualName : String := "blastgraph.db"

/-- Reads the arguments of the command line. A general switch after the verb prevails over the same
one before it. -/
def read? (arguments : List String) : Option Invocation := do
  let outer ← Given.read? Switch.general true none arguments
  let name :: rest := outer.operands | none
  let verb ← Verb.ofName? name
  let inner ← Given.read? (verb.switches ++ Switch.general) false none rest
  if outer.isDistinct && inner.isDistinct then
    let value? (switch : Switch) : Option String :=
      (inner.switches ++ outer.switches).lookup switch
    let command ← verb.command? value? inner.operands
    let usual : RetryPolicy := {}
    return {
      databaseName := (value? .db).getD usualName
      retry := { usual with
        maxRetries := ((value? .retryAttempts).bind Switch.attempts?).getD usual.maxRetries
        initialBackoffMs :=
          ((value? .retryBackoff).bind Switch.milliseconds?).getD usual.initialBackoffMs }
      command := command }
  else none

end Invocation

end BlastRadius
