import BlastRadius.Command.Invocation
import BlastRadius.Files.Workspace
import BlastRadius.Impact.Written

/-!
The running of commands: what a command reads, the operation that it stands for, what it shows or
writes, and the ways in which it fails.
-/

namespace BlastRadius

/-- Why the command line failed. -/
inductive CommandError where
  | usage
  | database (name : String)
  | fixture (path : String) (flaw : Json.Flaw)
  | kind (error : GraphError)
  | file (error : FileError)
  | operation (error : ImpactError)
  deriving Repr

namespace CommandError

/-- What is wrong with a text that is no fixture. -/
def flawText : Json.Flaw → String
  | .malformed => "malformed JSON"
  | .mismatch => "unexpected shape"

def message : CommandError → String
  | usage => "the arguments cannot be understood"
  | database name => s!"failed to open database '{name}': not a usable database"
  | fixture path flaw => s!"invalid fixture {path}: {flawText flaw}"
  | kind error => error.message
  | file error => "I/O error: " ++ error.message
  | operation error => error.message

def operationCode : ImpactError → Nat
  | .invalid _ | .partialFailure _ _ => 1
  | .notFound _ _ => 2
  | .store _ | .stageFailed _ _ => 3
  | .deadlineExceeded _ => 4

def exitCode : CommandError → Nat
  | usage => 2
  | database _ | file _ => 3
  | fixture _ _ | kind _ => 1
  | operation error => operationCode error

end CommandError

/-- What a command leads to. -/
inductive Output where
  | shown (text : String)
  | written (path : String) (text : String)
  deriving DecidableEq, Repr

namespace Command

/-- The fixture in the text of a file. -/
def fixtureOf (path text : String) : Except CommandError Fixture :=
  (Json.decodeText Fixture.decode text).mapError (.fixture path)

/-- The operation that a command stands for. `read` reads a file, and `lapse` says where the time of
a propagation runs out. -/
def operation (read : String → Except FileError String) (lapse : Option Moment := none) :
    Command → Except CommandError Operation
  | load path => do
      let text ← (read path).mapError .file
      let fixture ← fixtureOf path text
      return .loadFixture fixture
  | vulnerability symbol identity => return .createVulnerability identity symbol
  | propagate identity fromCurrentMarks converge deadlineMs =>
      let config : PropagationConfig := { converge, deadlineMs, lapse }
      return if fromCurrentMarks then .propagate config else .run config identity
  | marked none => return .radius
  | marked (some text) => do
      let kind ← (NodeKind.parse text).mapError .kind
      return .marked kind
  | flowchart _ => return .flowchart
  | resetMarks => return .resetMarks
  | reset none => return .reset
  | reset (some text) => do
      let domain ← (Domain.parse text).mapError .operation
      return .resetDomain domain

/-- What a command does with the answer to its operation. -/
def output (runId : String) : Command → Answer → Output
  | flowchart (some path), .text content => .written path content
  | _, .text content => .shown content
  | _, answer => .shown (answer.toJson runId).indented

/-- What is shown when a file was written. -/
def writtenNotice (path : String) : String := "wrote " ++ path

end Command

namespace Invocation

/-- Runs a command on the tables of its database, with the store that the database is in. -/
def perform (runId : String) (read : String → Except FileError String) (inner : Store Database)
    (invocation : Invocation) (tables : Tables) (lapse : Option Moment := none) :
    Except CommandError Output × Tables :=
  match invocation.command.operation read lapse with
  | .error error => (.error error, tables)
  | .ok operation =>
      let store := Retrying.store invocation.retry inner
      let answered := operation.on store ⟨{ tables := tables }, 0⟩
      let result := (answered.1.map (invocation.command.output runId)).mapError .operation
      (result, answered.2.inner.tables)

end Invocation

end BlastRadius
