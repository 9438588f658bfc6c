import BlastRadius.Command.Run
import BlastRadius.Store.Archive
import BlastRadius.Store.Location
import BlastRadius.Store.ReadOnly
import BlastRadius.Text.Hexadecimal

/-!
The command line: reads its files, runs the command and shows what it leads to.
-/

namespace BlastRadius.CommandLine

def readFile (path : String) : IO (Except FileError String) := do
  try
    return .ok (← IO.FS.readFile path)
  catch
    | .noFileOrDirectory .. => return .error .missing
    | error => return .error (.other (toString error))

def writeFile (path text : String) : IO (Except FileError Unit) := do
  try
    IO.FS.writeFile path text
    return .ok ()
  catch
    | .noFileOrDirectory .. => return .error .missing
    | error => return .error (.other (toString error))

/-- The path of the file that a database is kept in, if there is one. -/
def pathOf : Location → Option String
  | .transient => none
  | .file path _ => String.fromUTF8? ⟨path.toArray⟩

def mayWrite : Location → Bool
  | .transient => true
  | .file _ opening => opening.mayWrite && !opening.frozen

def mayCreate : Location → Bool
  | .transient => true
  | .file _ opening => opening.mayCreate && mayWrite (.file [] opening)

/-- The tables of a database, which is made if it is not there and may be. -/
def openDatabase (location : Location) : IO (Option Tables) := do
  match pathOf location with
  | none => return if location = .transient then some {} else none
  | some path =>
      match ← readFile path with
      | .ok text => return Tables.ofText? text
      | .error .missing =>
          if mayCreate location then
            match ← writeFile path (Tables.toText {}) with
            | .ok _ => return some {}
            | .error _ => return none
          else return none
      | .error _ => return none

def keepDatabase (location : Location) (tables : Tables) : IO (Except FileError Unit) := do
  match pathOf location with
  | some path => if mayWrite location then writeFile path tables.toText else return .ok ()
  | none => return .ok ()

/-- A name for a run that no other run has. -/
def newRunId : IO String := do
  let bytes ← IO.getRandomBytes 16
  return String.ofList <| bytes.toList.flatMap fun byte =>
    [Text.hexDigit (byte.toNat / 16), Text.hexDigit byte.toNat]

def fileOf : Command → IO (Except FileError String)
  | .load path => readFile path
  | _ => return .error .missing

/-- Shows or writes what a command leads to. -/
def present : Output → IO (Except CommandError Unit)
  | .shown text => do
      IO.println text
      return .ok ()
  | .written path text => do
      match ← writeFile path text with
      | .ok _ =>
          IO.println (Command.writtenNotice path)
          return .ok ()
      | .error error => return .error (.file error)

/-- Runs a command on the database at a location. -/
def executeAt (location : Location) (invocation : Invocation) : IO (Except CommandError Unit) := do
  match ← openDatabase location with
  | none => return .error (.database invocation.databaseName)
  | some tables =>
      let text ← fileOf invocation.command
      let runId ← newRunId
      let store := if mayWrite location then Database.store else Database.readOnlyStore
      let (result, changed) := invocation.perform runId (fun _ => text) store tables
      match ← keepDatabase location changed with
      | .error _ => return .error (.database invocation.databaseName)
      | .ok _ =>
          match result with
          | .ok output => present output
          | .error error => return .error error

def execute (invocation : Invocation) : IO (Except CommandError Unit) := do
  match Location.ofName? invocation.databaseName with
  | some location => executeAt location invocation
  | none => return .error (.database invocation.databaseName)

def run (arguments : List String) : IO (Except CommandError Unit) := do
  match Invocation.read? arguments with
  | some invocation => execute invocation
  | none => return .error .usage

end BlastRadius.CommandLine

def main (arguments : List String) : IO UInt32 := do
  match ← BlastRadius.CommandLine.run arguments with
  | .ok _ => return 0
  | .error error =>
      IO.eprintln ("Error: " ++ error.message)
      return UInt32.ofNat error.exitCode
