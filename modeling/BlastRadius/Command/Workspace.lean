import BlastRadius.Command.Run
import BlastRadius.Files.Attachment
import BlastRadius.Store.ReadOnly

/-!
Commands that are run one after the other in a workspace. A command that fails leaves its database
open, as a program does that is stopped.
-/

namespace BlastRadius

/-- The store that an open database is in. -/
def Keeping.store : Keeping → Store Database
  | readOnly => Database.readOnlyStore
  | nowhere | inFile _ | inLog _ _ _ => Database.store

namespace Workspace

/-- Shows or writes what a command leads to and closes the database. -/
def conclude (workspace : Workspace) (keeping : Keeping) :
    Output → Except CommandError String × Workspace
  | .shown text => (.ok text, workspace.detach keeping)
  | .written path text =>
      match workspace.write path text with
      | .ok changed => (.ok (Command.writtenNotice path), changed.detach keeping)
      | .error error => (.error (.file error), workspace)

def executeOn (runId : String) (workspace : Workspace) (attachment : Attachment)
    (invocation : Invocation) (lapse : Option Moment := none) :
    Except CommandError String × Workspace :=
  let performed :=
    invocation.perform runId workspace.read attachment.keeping.store attachment.tables lapse
  let (attachment, workspace) := workspace.save attachment performed.2
  match performed.1 with
  | .error error => (.error error, workspace)
  | .ok output => workspace.conclude attachment.keeping output

/-- Runs a command. The answer is the text that it shows or the error. -/
def execute (runId : String) (workspace : Workspace) (invocation : Invocation)
    (lapse : Option Moment := none) : Except CommandError String × Workspace :=
  match (Location.ofName? invocation.databaseName).map workspace.attach with
  | some (some attachment, workspace) => workspace.executeOn runId attachment invocation lapse
  | some (none, workspace) => (.error (.database invocation.databaseName), workspace)
  | none => (.error (.database invocation.databaseName), workspace)

/-- Runs the command line on a list of arguments. If it propagates, `lapse` says where
the time runs out. -/
def run (runId : String) (workspace : Workspace) (arguments : List String)
    (lapse : Option Moment := none) : Except CommandError String × Workspace :=
  match Invocation.read? arguments with
  | some invocation => workspace.execute runId invocation lapse
  | none => (.error .usage, workspace)

end Workspace

end BlastRadius
