import BlastRadius.Json.Draft

/-!
Decoding of drafts. A decoder goes through a draft from left to right and stops at the first fault:
a text that is no JSON is malformed, a value of an unexpected shape is a mismatch.

Records are read by name from objects and by position from arrays. A field may occur once; members
with other names are passed over.
-/

namespace BlastRadius.Json

/-- Why a text could not be decoded. -/
inductive Flaw where
  | malformed
  /-- The value is not of the expected shape. -/
  | mismatch
  deriving DecidableEq, Repr

namespace Draft

/-- The flaw of a value that is not of the expected shape. A number or text is read to its end
first, an array or object is refused at once. -/
def misfit : Draft → Flaw
  | null | bool _ | array _ _ | object _ _ => .mismatch
  | number numeral => if numeral.inRange then .mismatch else .malformed
  | text content => if content.isSome then .mismatch else .malformed
  | broken => .malformed

end Draft

abbrev Decoder (α : Type) := Draft → Except Flaw α

namespace Decoder

def string : Decoder String
  | .text (some content) => .ok content
  | draft => .error draft.misfit

def bool : Decoder Bool
  | .bool value => .ok value
  | draft => .error draft.misfit

def natBelow (bound : Nat) : Decoder Nat
  | .number numeral =>
      match numeral.natural? with
      | some n => if n < bound then .ok n else .error (Draft.number numeral).misfit
      | none => .error (Draft.number numeral).misfit
  | draft => .error draft.misfit

/-- Decodes the values of an array one after the other. -/
def items {α : Type} (decode : Decoder α) : List Draft → Except Flaw (List α)
  | [] => .ok []
  | item :: rest => do
      let value ← decode item
      let values ← items decode rest
      return value :: values

def list {α : Type} (decode : Decoder α) : Decoder (List α)
  | .array drafts closed => do
      let values ← items decode drafts
      if closed then return values else throw .malformed
  | draft => .error draft.misfit

/-- Decodes a value that may be `null`. -/
def nullable {α : Type} (decode : Decoder α) : Decoder (Option α)
  | .null => .ok none
  | draft => some <$> decode draft

/-- Decodes one of finitely many names, given as a text or as the name of the only member of an
object whose value is `null`. -/
def nameOf {α : Type} (ofName? : String → Option α) : Decoder α
  | .text (some name) | .object [(some name, .null)] true =>
      match ofName? name with
      | some value => .ok value
      | none => .error .mismatch
  | draft => .error draft.misfit

end Decoder

/-- A reader of the fields of a record. -/
structure RecordReader (α : Type) where
  /-- What was collected so far. -/
  State : Type
  /-- Nothing collected. -/
  start : State
  /-- Takes a member in, or answers `none` to a name that is no field. -/
  member : State → String → Draft → Except Flaw (Option State)
  /-- The record, or `none` when a field is missing. -/
  finish : State → Option α
  /-- Takes the record from the first values of an array, which is closed or breaks off. -/
  positions : Bool → List Draft → Except Flaw (α × List Draft)

namespace RecordReader

variable {α β : Type}

/-- A record of one field. `absent` stands in for it in an object, and `short` in an array. -/
def fieldWith (name : String) (decode : Decoder α) (absent short : Option α) :
    RecordReader α where
  State := Option α
  start := none
  member state given draft :=
    if given = name then
      match state with
      | some _ => .error .mismatch
      | none => (fun value => some (some value)) <$> decode draft
    else .ok none
  finish state := state <|> absent
  positions closed
    | draft :: rest => (fun value => (value, rest)) <$> decode draft
    | [] =>
        if closed then
          match short with
          | some value => .ok (value, [])
          | none => .error .mismatch
        else .error .malformed

/-- A field that must be given. -/
def field (name : String) (decode : Decoder α) : RecordReader α :=
  fieldWith name decode none none

/-- A field with a default. -/
def fieldOr (name : String) (decode : Decoder α) (default : α) : RecordReader α :=
  fieldWith name decode (some default) (some default)

/-- A field that may be `null` and may be missing in an object, but not in an array. -/
def nullableField (name : String) (decode : Decoder α) : RecordReader (Option α) :=
  fieldWith name (Decoder.nullable decode) (some none) none

/-- The fields of two records, one after the other. -/
def and (first : RecordReader α) (second : RecordReader β) : RecordReader (α × β) where
  State := first.State × second.State
  start := (first.start, second.start)
  member state name draft := do
    match ← first.member state.1 name draft with
    | some taken => return some (taken, state.2)
    | none =>
        match ← second.member state.2 name draft with
        | some taken => return some (state.1, taken)
        | none => return none
  finish state :=
    match first.finish state.1, second.finish state.2 with
    | some a, some b => some (a, b)
    | _, _ => none
  positions closed drafts := do
    let (a, rest) ← first.positions closed drafts
    let (b, rest) ← second.positions closed rest
    return ((a, b), rest)

def map (f : α → β) (reader : RecordReader α) : RecordReader β where
  State := reader.State
  start := reader.start
  member := reader.member
  finish state := (reader.finish state).map f
  positions closed drafts := do
    let (value, rest) ← reader.positions closed drafts
    return (f value, rest)

def unit : RecordReader Unit where
  State := Unit
  start := ()
  member _ _ _ := .ok none
  finish _ := some ()
  positions _ drafts := .ok ((), drafts)

/-- Takes the members of an object in, in their order. -/
def members (reader : RecordReader α) :
    reader.State → List (Option String × Draft) → Except Flaw reader.State
  | state, [] => .ok state
  | _, (none, _) :: _ => .error .malformed
  | state, (some name, draft) :: rest => do
      match ← reader.member state name draft with
      | some taken => members reader taken rest
      | none => if draft.isComplete then members reader state rest else throw .malformed

/-- Reads a record by name from the members of an object. -/
def ofMembers (reader : RecordReader α) (given : List (Option String × Draft)) (closed : Bool) :
    Except Flaw α := do
  let state ← reader.members reader.start given
  if closed then
    match reader.finish state with
    | some value => return value
    | none => throw .mismatch
  else throw .malformed

/-- Reads a record by position from the values of an array. -/
def ofItems (reader : RecordReader α) (given : List Draft) (closed : Bool) : Except Flaw α := do
  let (value, rest) ← reader.positions closed given
  if closed && rest.isEmpty then return value else throw .malformed

/-- Decodes a record from an object or an array. -/
def decode (reader : RecordReader α) : Decoder α
  | .object given closed => reader.ofMembers given closed
  | .array given closed => reader.ofItems given closed
  | draft => .error draft.misfit

/-- How deep the containers of a value may stand when it is read as a whole before it is decoded. -/
def depthLimit : Nat := 127

/-- Decodes one of several records that a tag tells apart. The tag is the value of the member `tag`
of an object, wherever it stands, or the first value of an array. The whole value is read before
it is decoded. -/
def tagged (tag : String) (variant? : String → Option (RecordReader α)) : Decoder α :=
  fun draft =>
  if draft.isSound depthLimit then
    match draft with
    | .object given _ =>
        match given.filter fun member => member.1 == some tag with
        | [(_, .text (some name))] =>
            match variant? name with
            | some reader => reader.ofMembers (given.filter fun member => member.1 != some tag) true
            | none => .error .mismatch
        | _ => .error .mismatch
    | .array (.text (some name) :: rest) _ =>
        match variant? name with
        | some reader => reader.ofItems rest true
        | none => .error .mismatch
    | _ => .error .mismatch
  else .error .malformed

end RecordReader

/-- Decodes a whole text. What follows the value is looked at last. -/
def decodeText {α : Type} (decode : Decoder α) (source : String) : Except Flaw α := do
  let (draft, ended) := Draft.read source
  let value ← decode draft
  if ended then return value else throw .malformed

end BlastRadius.Json
