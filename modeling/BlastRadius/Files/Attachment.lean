import BlastRadius.Files.Workspace
import BlastRadius.Store.Location

/-!
Databases in the files of a workspace, from their opening to their closing.

A database that keeps a log writes its changes there; they reach its own file when it is closed in
good order. Until then the file holds what it held before, and for a new database that is a first
page without any tables. Files left behind beside a database are taken up or removed when it is
opened.
-/

namespace BlastRadius

/-- How an open database is kept. -/
inductive Keeping where
  | nowhere
  | readOnly
  | inFile (place : Place)
  /-- In a log beside its file. `indexed` says whether the log has an index, `pending` whether it
  holds changes, and if it does whether it makes a database alone. -/
  | inLog (place : Place) (indexed : Bool) (pending : Option Bool)
  deriving DecidableEq, Repr

/-- An open database. -/
structure Attachment where
  tables : Tables
  keeping : Keeping
  deriving DecidableEq, Repr

namespace Place

/-- The place of the journal of a database, from which an interrupted change is undone. -/
def journal (place : Place) : Place := place.beside "-journal"

/-- The place of the log of a database. -/
def log (place : Place) : Place := place.beside "-wal"

/-- The place of the index of a log. -/
def index (place : Place) : Place := place.beside "-shm"

/-- Whether the name at the end of a place is longer than names may be. -/
def isTooLong (place : Place) : Bool :=
  place.names.getLast?.any fun name => FileName.limit < name.length

end Place

namespace FileContent

/-- The first page of a database that keeps a log and has nothing in its file yet. Its bytes are
those of a text. -/
def firstPage : String :=
  let zeros (n : Nat) : List Nat := List.replicate n 0
  let fields : List Nat :=
    "SQLite format 3".toList.map Char.toNat ++
      [0, 16, 0, 2, 2, 0, 64, 32, 32, 0, 0, 0, 1, 0, 0, 0, 1] ++ zeros 60 ++
      [0, 0, 0, 1, 0, 46, 122, 112, 13, 0, 0, 0, 0, 16, 0]
  String.ofList ((fields ++ zeros (4096 - fields.length)).map Char.ofNat)

def isEmpty : FileContent → Bool
  | text content => content.isEmpty
  | database _ _ | log _ _ | binary => false

/-- Whether a file counts as a database without tables. One byte is as good as none. -/
def isUnused : FileContent → Bool
  | text content => content.utf8ByteSize ≤ 1
  | database _ _ | log _ _ | binary => false

/-- Whether a journal has something to undo. -/
def isHot : FileContent → Bool
  | text content => content.toList.head?.any (· != '\x00')
  | database _ _ | log _ _ | binary => true

/-- Whether a database says of itself that it keeps a log. -/
def wantsLog : FileContent → Bool
  | text content => content == firstPage
  | database _ logged => logged
  | log _ _ | binary => false

/-- Whether a file holds a database with tables. -/
def isDatabase : FileContent → Bool
  | database _ _ => true
  | text _ | log _ _ | binary => false

/-- The tables in a file and the log beside it, and whether the log holds changes. `none` if they
are no database. -/
def tables? (content : FileContent) : Option FileContent → Option (Tables × Option Bool)
  | some (log tables whole) =>
      if whole || content.isDatabase then some (tables, some whole) else none
  | _ =>
      match content with
      | database tables _ => some (tables, none)
      | _ => none

end FileContent

namespace Workspace

/-- Where the names of a path lead to, whatever is there. Only a name that is too long or goes on
below a file stops it. -/
def follow (workspace : Workspace) : Place → List FileName → Option Place
  | place, [] => some place
  | place, name :: rest =>
      if name.stays then follow workspace place rest
      else if name = FileName.around then follow workspace place.parent rest
      else
        match workspace.lookup (place.child name) with
        | .ok _ | .error .missing => follow workspace (place.child name) rest
        | .error _ => none

/-- The content of a file that is there and not empty. -/
def filled? (workspace : Workspace) (place : Place) : Option FileContent :=
  (workspace.content? place).filter fun content => !content.isEmpty

/-- Removes a file if it is not empty. -/
def removeFilled (workspace : Workspace) (place : Place) : Workspace :=
  if (workspace.filled? place).isSome then workspace.remove place else workspace

/-- Puts a file at a place if there is none. -/
def provide (workspace : Workspace) (place : Place) (content : FileContent) : Workspace :=
  if (workspace.content? place).isSome then workspace else workspace.put place content

/-- The workspace with the index of the log of a database, if there is to be one. -/
def withIndex (workspace : Workspace) (place : Place) (indexed : Bool) : Workspace :=
  if indexed then workspace.put place.index .binary else workspace

/-- The workspace without the log of a database and its index, if there is one. -/
def withoutLog (workspace : Workspace) (place : Place) (indexed : Bool) : Workspace :=
  let removed := workspace.remove place.log
  if indexed then removed.remove place.index else removed

/-- Opens a database whose file has nothing in it. Its tables are made. -/
def attachUnused (workspace : Workspace) (place : Place) (opening : Opening) :
    Option Attachment × Workspace :=
  if !opening.mayWrite then
    let cleared := workspace.removeFilled place.log
    (none,
      if opening.heedsJournal && !opening.keepsLog then cleared.removeFilled place.journal
      else cleared)
  else if place.journal.isTooLong then (none, workspace)
  else
    let cleared := (workspace.removeFilled place.log).remove place.journal
    if opening.keepsLog then
      let made := (cleared.put place (.text FileContent.firstPage)).put place.log (.log {} true)
      (some ⟨{}, .inLog place opening.keepsIndex (some true)⟩,
        made.withIndex place opening.keepsIndex)
    else (some ⟨{}, .inFile place⟩, cleared.put place (.database {} false))

/-- Opens a database for reading, after its journal was found to be cold. -/
def attachForReading (workspace : Workspace) (place : Place) (content : FileContent)
    (opening : Opening) : Option Attachment × Workspace :=
  let log? := workspace.filled? place.log
  if log?.isSome || content.wantsLog then
    let opened := (workspace.provide place.log (.text "")).withIndex place opening.keepsIndex
    ((content.tables? log?).map fun found => ⟨found.1, .readOnly⟩, opened)
  else if opening.keepsLog then (none, workspace)
  else ((content.tables? none).map fun found => ⟨found.1, .readOnly⟩, workspace)

/-- What closing leaves of a database whose log holds changes. A log that is not whole only helps
the file that it belongs to. -/
def merged (workspace : Workspace) (place : Place) (tables : Tables) (whole : Bool) :
    FileContent :=
  if whole || (workspace.content? place).any FileContent.isDatabase then .database tables true
  else .binary

/-- Opens a database for reading and writing with a log. A file that is no
database is closed again. -/
def attachWithLog (workspace : Workspace) (place : Place) (content : FileContent)
    (opening : Opening) : Option Attachment × Workspace :=
  let log? := workspace.filled? place.log
  match content.tables? log? with
  | some (tables, pending) =>
      let converted := match content with
        | .database tables false =>
            (workspace.put place (.database tables true)).remove place.journal
        | _ => workspace
      (some ⟨tables, .inLog place opening.keepsIndex pending⟩,
        (converted.provide place.log (.text "")).withIndex place opening.keepsIndex)
  | none =>
      if content.wantsLog then
        (some ⟨{}, .inLog place opening.keepsIndex (some true)⟩,
          (workspace.put place.log (.log {} true)).withIndex place opening.keepsIndex)
      else
        match log? with
        | some (.log tables whole) =>
            let settled := workspace.put place (workspace.merged place tables whole)
            (none, settled.withoutLog place opening.keepsIndex)
        | some _ => (none, workspace.withoutLog place opening.keepsIndex)
        | none => (none, workspace)

/-- Opens a database for reading and writing without a log. -/
def attachWithoutLog (workspace : Workspace) (place : Place) (content : FileContent) :
    Option Attachment × Workspace :=
  if (workspace.filled? place.log).isSome || content.wantsLog then (none, workspace)
  else ((content.tables? none).map fun found => ⟨found.1, .inFile place⟩, workspace)

/-- Opens a database whose file has something in it. What its journal holds is undone first. -/
def attachFilled (workspace : Workspace) (place : Place) (content : FileContent)
    (opening : Opening) : Option Attachment × Workspace :=
  let hot := opening.heedsJournal && (workspace.content? place.journal).any FileContent.isHot
  if !opening.mayWrite then
    if hot then (none, workspace)
    else if opening.keepsLog || !(content.wantsLog || (workspace.filled? place.log).isSome) then
      workspace.attachForReading place content opening
    else (none, workspace)
  else
    let undone := if hot then workspace.remove place.journal else workspace
    if opening.keepsLog then undone.attachWithLog place content opening
    else undone.attachWithoutLog place content

def attachFile (workspace : Workspace) (place : Place) (content : FileContent)
    (opening : Opening) : Option Attachment × Workspace :=
  if opening.frozen then
    ((content.tables? none).map fun found => ⟨found.1, .readOnly⟩, workspace)
  else if content.isUnused then workspace.attachUnused place opening
  else workspace.attachFilled place content opening

/-- Whether the file that a new database takes its permissions from is there. -/
def hasTemplate (workspace : Workspace) (opening : Opening) : Bool :=
  match opening.template with
  | none => true
  | some path =>
      match workspace.find path with
      | .ok (_, .vacant) | .error _ => false
      | .ok _ => true

/-- Opens a database. A file that is not there is made, if it may be. -/
def attach (workspace : Workspace) : Location → Option Attachment × Workspace
  | .transient => (some ⟨{}, .nowhere⟩, workspace)
  | .file path opening =>
      match workspace.follow (Place.start path) (Place.namesOf path) with
      | none => (none, workspace)
      | some place =>
          if workspace.hasTemplate opening then
            match workspace.lookup place with
            | .ok (.file content) => workspace.attachFile place content opening
            | .ok .vacant =>
                if opening.mayCreate then
                  (workspace.put place (.text "")).attachFile place (.text "") opening
                else (none, workspace)
            | .ok .directory | .ok .nullDevice | .error _ => (none, workspace)
          else (none, workspace)

/-- Keeps changed tables. -/
def save (workspace : Workspace) (attachment : Attachment) (tables : Tables) :
    Attachment × Workspace :=
  if tables = attachment.tables then (attachment, workspace)
  else
    match attachment.keeping with
    | .nowhere | .readOnly => (⟨tables, attachment.keeping⟩, workspace)
    | .inFile place => (⟨tables, .inFile place⟩, workspace.put place (.database tables false))
    | .inLog place indexed pending =>
        let whole := pending.getD false
        (⟨tables, .inLog place indexed (some whole)⟩,
          workspace.put place.log (.log tables whole))

/-- Closes a database in good order. The changes in its log reach its file, unless other hands wrote
to the log. -/
def detach (workspace : Workspace) (keeping : Keeping) : Workspace :=
  match keeping with
  | .nowhere | .readOnly | .inFile _ => workspace
  | .inLog place indexed none => workspace.withoutLog place indexed
  | .inLog place indexed (some _) =>
      match workspace.content? place.log with
      | some (.log tables whole) =>
          (workspace.put place (workspace.merged place tables whole)).withoutLog place indexed
      | _ => workspace

end Workspace

end BlastRadius
