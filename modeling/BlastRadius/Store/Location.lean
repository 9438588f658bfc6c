import BlastRadius.Text.Case
import BlastRadius.Text.Integer
import BlastRadius.Text.Parts
import BlastRadius.Text.Percent

/-!
Where a database is kept, and how it may be opened there.

A location is written as the path of a file, or after `file:` as a path in which bytes may be
escaped, with parameters after a question mark and a remark after a number sign. Main statement:
`ofName?_of_plain`, by which a text that does not start with `file:` is a path as it stands.
-/

namespace BlastRadius

/-- What may be done with the file of a database. -/
inductive Access where
  | readOnly
  | readWrite
  /-- The file may also be made. -/
  | create
  | memory
  deriving DecidableEq, Repr

namespace Access

def name : Access → String
  | readOnly => "ro"
  | readWrite => "rw"
  | create => "rwc"
  | memory => "memory"

def all : List Access := [readOnly, readWrite, create, memory]

def ofName? (written : List UInt8) : Option Access :=
  all.find? fun access => Text.bytes access.name == written

/-- How much an access allows. -/
def rank : Access → Nat
  | memory => 0
  | readOnly => 1
  | readWrite => 2
  | create => 3

/-- An access that was asked for after another one. It may not allow more than the other, unless
there was no file yet. -/
def next? (current asked : Access) : Option Access :=
  if current = memory ∨ asked.rank ≤ current.rank then some asked else none

end Access

/-- The ways in which files are shared with other programs. -/
inductive Sharing where
  /-- By locks, and with an index of the log in a file of its own. -/
  | locks
  /-- By locks that are held until the end. -/
  | exclusive
  /-- Not at all, and without a log. -/
  | unlocked
  /-- By a file next to the database, and without a log. -/
  | lockFile
  | memory
  deriving DecidableEq, Repr

namespace Sharing

def name : Sharing → String
  | locks => "unix"
  | exclusive => "unix-excl"
  | unlocked => "unix-none"
  | lockFile => "unix-dotfile"
  | memory => "memdb"

def all : List Sharing := [locks, exclusive, unlocked, lockFile, memory]

def ofName? (written : List UInt8) : Option Sharing :=
  all.find? fun sharing => Text.bytes sharing.name == written

/-- Whether a log can be kept. -/
def keepsLog : Sharing → Bool
  | locks | exclusive => true
  | unlocked | lockFile | memory => false

end Sharing

/-- How the file of a database is opened. -/
structure Opening where
  mayWrite : Bool := true
  /-- Whether the file may be made. -/
  mayCreate : Bool := true
  /-- Whether nobody changes the file, so that nothing beside it is looked at. -/
  frozen : Bool := false
  /-- Whether changes go to a log first. -/
  keepsLog : Bool := true
  /-- Whether the log has an index in a file of its own. -/
  keepsIndex : Bool := true
  /-- Whether a journal is taken for that of an interrupted change. A lock file hides it. -/
  heedsJournal : Bool := true
  /-- A file that has to be there, whose permissions a new file takes. -/
  template : Option (List UInt8) := none
  deriving DecidableEq, Repr

/-- Where a database is kept. -/
inductive Location where
  /-- Nowhere: it is empty at first and lost at the end. -/
  | transient
  | file (path : List UInt8) (opening : Opening)
  deriving DecidableEq, Repr

namespace Location

/-- The name of a database that is kept nowhere. -/
def memoryName : List UInt8 := Text.bytes ":memory:"

/-- What a part of a name stands for. It ends before an escaped zero. -/
def value (part : List UInt8) : List UInt8 := (Text.unescaped part).takeWhile (· != 0)

/-- The two parts of a text around the first separator, the second without it. -/
def cut (separator : Char) (text : List UInt8) : List UInt8 × List UInt8 :=
  (text.takeWhile (· != separator.toUInt8), (text.dropWhile (· != separator.toUInt8)).drop 1)

abbrev Parameter := List UInt8 × List UInt8

/-- The parameters in a list between ampersands. One without a name is passed over, and one without
an equals sign has an empty value. -/
def parameters (list : List UInt8) : List Parameter :=
  let read (item : List UInt8) : Parameter := (value (cut '=' item).1, value (cut '=' item).2)
  ((Text.parts '&'.toUInt8 list).map read).filter fun parameter => !parameter.1.isEmpty

/-- The value of the first parameter with a name. -/
def first? (given : List Parameter) (name : String) : Option (List UInt8) :=
  given.lookup (Text.bytes name)

/-- The value of the last parameter with a name. -/
def last? (given : List Parameter) (name : String) : Option (List UInt8) :=
  first? given.reverse name

/-- The characters with the codes that bytes are. -/
def ascii (written : List UInt8) : List Char := written.map fun byte => Char.ofNat byte.toNat

/-- The number that the digits at the start of a text write. A number that is too great for a
32-bit word is none. -/
def number (written : List UInt8) : Nat :=
  let n := Text.ofDigits ((ascii written).takeWhile Char.isDigit)
  if n < Nat.pow 2 31 then n else 0

/-- Whether a value means yes: a number whose low byte is not zero, or one of three
words in any case. -/
def isYes (written : List UInt8) : Bool :=
  if (ascii written).head?.any Char.isDigit then number written % 256 != 0
  else ["on", "yes", "true"].any (Text.sameUpToCase (String.ofList (ascii written)))

/-- Whether the first parameter with a name means yes. -/
def isSet (given : List Parameter) (name : String) : Bool :=
  (first? given name).any isYes

/-- The access that parameters ask for one after the other. -/
def access? (given : List Parameter) : Option Access :=
  given.foldlM (fun access parameter =>
    if parameter.1 = Text.bytes "mode" then Access.ofName? parameter.2 >>= access.next?
    else some access) .create

/-- Whether every parameter about caches has one of its two values. -/
def cachesKnown (given : List Parameter) : Bool :=
  given.all fun parameter =>
    parameter.1 != Text.bytes "cache" ||
      ["shared", "private"].any fun word => Text.bytes word == parameter.2

/-- The way of sharing that parameters ask for. -/
def sharing? (given : List Parameter) : Option Sharing :=
  match last? given "vfs" with
  | some written => Sharing.ofName? written
  | none => some .locks

/-- The location with a path and parameters. A database that is kept nowhere has to be written to
before it can be read. -/
def resolve (path : List UInt8) (given : List Parameter) (access : Access) (sharing : Sharing) :
    Option Location :=
  let frozen := isSet given "immutable"
  let unnamed := path.isEmpty || path == memoryName || access == .memory
  if unnamed then if access = .readOnly then none else some .transient
  else if sharing = .memory then
    if access = .readOnly ∨ frozen then none else some .transient
  else
    let locked := !isSet given "nolock"
    let keepsLog := sharing.keepsLog && locked
    some (.file path {
      mayWrite := access != .readOnly
      mayCreate := access == .create
      frozen := frozen
      keepsLog := keepsLog
      keepsIndex := keepsLog && sharing == .locks
      heedsJournal := !(locked && sharing == .lockFile)
      template := first? given "modeof" })

/-- A path and its parameters, after the host that may stand before it. No host but this
one can be named. -/
def ofPath? (text : List UInt8) : Option Location := do
  let written := text.takeWhile (· != '#'.toUInt8)
  let (path, list) := cut '?' written
  let given := parameters list
  let access ← access? given
  let sharing ← sharing? given
  if cachesKnown given then resolve (value path) given access sharing else none

/-- The path after a host, if the host is this one. -/
def afterHost? (text : List UInt8) : Option (List UInt8) :=
  let slashes := Text.bytes "//"
  if slashes.isPrefixOf text then
    let host := (text.drop 2).takeWhile (· != '/'.toUInt8)
    if host.isEmpty ∨ host = Text.bytes "localhost" then
      some ((text.drop 2).dropWhile (· != '/'.toUInt8))
    else none
  else some text

/-- What a location starts with if it is not a path as it stands. -/
def scheme : List UInt8 := Text.bytes "file:"

def ofName? (name : String) : Option Location :=
  let text := Text.bytes name
  if scheme.isPrefixOf text then afterHost? (text.drop scheme.length) >>= ofPath?
  else if text.isEmpty ∨ text = memoryName then some .transient
  else some (.file text {})

/-- A text that does not start with the scheme is a path as it stands. -/
theorem ofName?_of_plain {name : String} (hscheme : scheme.isPrefixOf (Text.bytes name) = false)
    (hempty : (Text.bytes name).isEmpty = false) (hmemory : Text.bytes name ≠ memoryName) :
    ofName? name = some (.file (Text.bytes name) {}) := by
  simp [ofName?, hscheme, hempty, hmemory]

end Location

end BlastRadius
