import BlastRadius.Text.Parts
import BlastRadius.Text.Percent

/-!
Names of files, and the places that lists of names lead to.
-/

namespace BlastRadius

/-- The name of a file or directory: bytes, none of which is zero or a slash. -/
abbrev FileName := List UInt8

namespace FileName

/-- The greatest length of a name. -/
def limit : Nat := 255

/-- The name of a directory in itself. -/
def here : FileName := Text.bytes "."

/-- The name of the directory around a directory. -/
def around : FileName := Text.bytes ".."

/-- Whether a name says where to stay. It is empty between two slashes and after the last one. -/
def stays (name : FileName) : Bool := name.isEmpty || name == here

end FileName

/-- A place among the files: the names that lead to it from the root, or from the working directory.
From the working directory the first names may be `FileName.around`. -/
structure Place where
  absolute : Bool := false
  names : List FileName := []
  deriving DecidableEq, Repr

namespace Place

/-- The place of a name in a directory. -/
def child (place : Place) (name : FileName) : Place :=
  { place with names := place.names ++ [name] }

/-- The directory around a directory. The one around the root is the root. -/
def parent (place : Place) : Place :=
  if place.absolute || place.names.any (· != FileName.around) then
    { place with names := place.names.dropLast }
  else place.child FileName.around

/-- The place beside a place whose name is longer by an ending. -/
def beside (place : Place) (ending : String) : Place :=
  match place.names.getLast? with
  | some name => { place with names := place.names.dropLast ++ [name ++ Text.bytes ending] }
  | none => place

/-- Where a path starts: at the root if its first byte is a slash. -/
def start (path : List UInt8) : Place := ⟨path.head? == some '/'.toUInt8, []⟩

/-- The names that a path is made of, with empty ones for the slashes at its ends and in a row. -/
def namesOf (path : List UInt8) : List FileName := Text.parts '/'.toUInt8 path

/-- The place with a path that has no slashes too many and no names that stay or go around. -/
def ofPath (path : String) : Place := ⟨false, namesOf (Text.bytes path)⟩

end Place

end BlastRadius
