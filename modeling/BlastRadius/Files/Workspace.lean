import BlastRadius.Files.Place
import BlastRadius.Store.Database

/-!
The files that commands read and write, as seen from a working directory.

Directories are there as far as files are in them; the working directory, those around it, the root
and the usual ones below it always are. `Workspace.find` follows a path; it fails at the first name
that leads nowhere.
-/

namespace BlastRadius

/-- The content of a file. -/
inductive FileContent where
  | text (content : String)
  /-- A database, and whether it keeps a log beside its file. -/
  | database (tables : Tables) (logged : Bool)
  /-- The log of a database: the tables that it leads to, and whether it does so alone. A log that
  does not only holds what is new since the file of its database was written. -/
  | log (tables : Tables) (whole : Bool)
  /-- Neither a text nor of any use. -/
  | binary
  deriving DecidableEq, Repr

/-- Why a file cannot be read or written. -/
inductive FileError where
  | missing
  | notDirectory
  | isDirectory
  | nameTooLong
  | notText
  /-- The system gives a reason of its own. -/
  | other (reason : String)
  deriving DecidableEq, Repr

def FileError.message : FileError → String
  | missing => "No such file or directory (os error 2)"
  | notDirectory => "Not a directory (os error 20)"
  | isDirectory => "Is a directory (os error 21)"
  | nameTooLong => "File name too long (os error 36)"
  | notText => "stream did not contain valid UTF-8"
  | other reason => reason

/-- What is at a place whose directory is there. -/
inductive Found where
  | file (content : FileContent)
  | directory
  /-- The file that is empty whatever is written to it. -/
  | nullDevice
  /-- Nothing, but a file could be put there. -/
  | vacant
  deriving Repr

/-- The files by their places. -/
structure Workspace where
  files : List (Place × FileContent) := []
  deriving Repr

namespace Workspace

/-- The greatest length of a path is one less. -/
def pathLimit : Nat := 4096

def usualDirectories : List FileName :=
  ["bin", "boot", "dev", "etc", "home", "lib", "media", "mnt", "opt", "proc", "root", "run", "sbin",
    "srv", "sys", "tmp", "usr", "var"].map Text.bytes

def nullDevice : Place := ⟨true, ["dev", "null"].map Text.bytes⟩

def content? (workspace : Workspace) (place : Place) : Option FileContent :=
  workspace.files.lookup place

def remove (workspace : Workspace) (place : Place) : Workspace :=
  ⟨workspace.files.filter fun entry => entry.1 != place⟩

def put (workspace : Workspace) (place : Place) (content : FileContent) : Workspace :=
  ⟨(place, content) :: (workspace.remove place).files⟩

/-- Whether there always is a directory at a place. -/
def isUsualDirectory (place : Place) : Bool :=
  if place.absolute then
    match place.names with
    | [] => true
    | [name] => usualDirectories.contains name
    | _ => false
  else place.names.all (· == FileName.around)

/-- Whether there is a directory at a place. -/
def isDirectory (workspace : Workspace) (place : Place) : Bool :=
  isUsualDirectory place ||
    workspace.files.any fun entry =>
      entry.1.absolute == place.absolute && place.names.isPrefixOf entry.1.names &&
        place.names.length < entry.1.names.length

/-- What a name leads to in a directory. -/
def foundIn (workspace : Workspace) (directory : Place) (name : FileName) :
    Except FileError Found :=
  let place := directory.child name
  if FileName.limit < name.length then .error .nameTooLong
  else if workspace.isDirectory place then .ok .directory
  else if place == nullDevice then .ok .nullDevice
  else
    match workspace.content? place with
    | some content => .ok (.file content)
    | none => .ok .vacant

/-- The directory that names lead to from a directory. -/
def enter (workspace : Workspace) : Place → List FileName → Except FileError Place
  | directory, [] => .ok directory
  | directory, name :: rest =>
      if name.stays then enter workspace directory rest
      else if name = FileName.around then enter workspace directory.parent rest
      else
        match workspace.foundIn directory name with
        | .ok .directory => enter workspace (directory.child name) rest
        | .ok .vacant => .error .missing
        | .ok (.file _) | .ok .nullDevice => .error .notDirectory
        | .error error => .error error

def lookup (workspace : Workspace) (place : Place) : Except FileError Found :=
  match place.names.getLast? with
  | none => .ok .directory
  | some name => do
      let directory ← workspace.enter ⟨place.absolute, []⟩ place.names.dropLast
      if name = FileName.around then return .directory
      else workspace.foundIn directory name

/-- What a path leads to, and its place. -/
def find (workspace : Workspace) (path : List UInt8) : Except FileError (Place × Found) := do
  if path.isEmpty then throw .missing
  if pathLimit ≤ path.length then throw .nameTooLong
  let names := Place.namesOf path
  let directory ← workspace.enter (Place.start path) names.dropLast
  let name := names.getLastD []
  if name.stays || name == FileName.around then
    return (← workspace.enter directory [name], .directory)
  else return (directory.child name, ← workspace.foundIn directory name)

def read (workspace : Workspace) (path : String) : Except FileError String := do
  match (← workspace.find (Text.bytes path)).2 with
  | .file (.text content) => return content
  | .file _ => throw .notText
  | .nullDevice => return ""
  | .directory => throw .isDirectory
  | .vacant => throw .missing

/-- A path without the slashes at its end. -/
def trimmed (path : List UInt8) : List UInt8 :=
  (path.reverse.dropWhile (· == '/'.toUInt8)).reverse

/-- Writes a file. A path that ends in a slash names a directory. -/
def write (workspace : Workspace) (path text : String) : Except FileError Workspace := do
  let given := Text.bytes path
  if trimmed given = given then
    match ← workspace.find given with
    | (place, .file _) | (place, .vacant) => return workspace.put place (.text text)
    | (_, .nullDevice) => return workspace
    | (_, .directory) => throw .isDirectory
  else if pathLimit ≤ given.length then throw .nameTooLong
  else
    let _ ← workspace.enter (Place.start given) (Place.namesOf (trimmed given)).dropLast
    throw .isDirectory

end Workspace

end BlastRadius
