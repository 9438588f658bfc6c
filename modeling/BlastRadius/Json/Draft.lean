import BlastRadius.Json.Numeral
import BlastRadius.Text.Hexadecimal

/-!
Reading JSON from left to right. A draft is what was read of a value, up to the place where the
text stops being JSON: an array or object that breaks off keeps the parts before that place. So a
reader of drafts that goes through the parts in their order meets the first fault of the text,
whether the fault is one of form or of meaning.
-/

namespace BlastRadius.Json

/-- What was read of a JSON value. -/
inductive Draft where
  | null
  | bool (value : Bool)
  | number (numeral : Numeral)
  /-- A text, or `none` when its escapes leave half of a surrogate pair alone. -/
  | text (content : Option String)
  /-- The values of an array, and whether its end was reached. -/
  | array (items : List Draft) (closed : Bool)
  /-- The members of an object, and whether its end was reached. -/
  | object (members : List (Option String × Draft)) (closed : Bool)
  /-- Here the text stops being JSON. -/
  | broken
  deriving Repr, Inhabited

namespace Draft

/-- The characters that may stand between the parts of a JSON text. -/
def isBlank (c : Char) : Bool :=
  c = ' ' ∨ c = '\n' ∨ c = '\t' ∨ c = '\r'

def skipBlank (cs : List Char) : List Char := cs.dropWhile isBlank

/-- A part of a text: a character, or a code unit written in hexadecimal. -/
inductive Piece where
  | char (c : Char)
  | unit (n : Nat)
  deriving DecidableEq, Repr

/-- Reads what follows a backslash. -/
def readEscape? : List Char → Option (Piece × List Char)
  | '"' :: rest => some (.char '"', rest)
  | '\\' :: rest => some (.char '\\', rest)
  | '/' :: rest => some (.char '/', rest)
  | 'b' :: rest => some (.char '\x08', rest)
  | 'f' :: rest => some (.char '\x0c', rest)
  | 'n' :: rest => some (.char '\n', rest)
  | 'r' :: rest => some (.char '\r', rest)
  | 't' :: rest => some (.char '\t', rest)
  | 'u' :: a :: b :: c :: d :: rest => do
      let a ← Text.hexValue? a
      let b ← Text.hexValue? b
      let c ← Text.hexValue? c
      let d ← Text.hexValue? d
      return (.unit (((a * 16 + b) * 16 + c) * 16 + d), rest)
  | _ => none

/-- Reads the pieces of a text up to its closing quote. Control characters may not stand in it.
The fuel bounds the number of pieces. -/
def readPieces? : Nat → List Char → Option (List Piece × List Char)
  | 0, _ => none
  | _ + 1, [] => none
  | _ + 1, '"' :: rest => some ([], rest)
  | fuel + 1, '\\' :: rest => do
      let (piece, rest) ← readEscape? rest
      let (pieces, rest) ← readPieces? fuel rest
      return (piece :: pieces, rest)
  | fuel + 1, c :: rest =>
      if c.toNat < 32 then none
      else do
        let (pieces, rest) ← readPieces? fuel rest
        return (.char c :: pieces, rest)

/-- The first half of a surrogate pair. -/
def isLead (n : Nat) : Bool := 0xD800 ≤ n && n < 0xDC00

/-- The second half of a surrogate pair. -/
def isTrail (n : Nat) : Bool := 0xDC00 ≤ n && n < 0xE000

/-- The characters that pieces stand for. A lead and a trail that follow each other are one
character; either of them alone is none. -/
def assemble? : List Piece → Option (List Char)
  | [] => some []
  | .char c :: rest => (assemble? rest).map (c :: ·)
  | .unit n :: rest =>
      if isTrail n then none
      else if isLead n then
        match rest with
        | .unit m :: rest =>
            if isTrail m then
              (assemble? rest).map
                (Char.ofNat (0x10000 + (n - 0xD800) * 0x400 + (m - 0xDC00)) :: ·)
            else none
        | _ => none
      else (assemble? rest).map (Char.ofNat n :: ·)

/-- Reads a text after its opening quote. -/
def readText? (cs : List Char) : Option (Option String × List Char) := do
  let (pieces, rest) ← readPieces? (cs.length + 1) cs
  return ((assemble? pieces).map String.ofList, rest)

mutual

/-- Reads a value. The text after it is `none` when the value breaks off. The fuel bounds the
depth of the value and the length of its lists. -/
def readValue : Nat → List Char → Draft × Option (List Char)
  | 0, _ => (broken, none)
  | fuel + 1, cs =>
      match skipBlank cs with
      | 'n' :: 'u' :: 'l' :: 'l' :: rest => (null, some rest)
      | 't' :: 'r' :: 'u' :: 'e' :: rest => (bool true, some rest)
      | 'f' :: 'a' :: 'l' :: 's' :: 'e' :: rest => (bool false, some rest)
      | '"' :: rest =>
          match readText? rest with
          | some (content, rest) => (text content, some rest)
          | none => (broken, none)
      | '[' :: rest =>
          match skipBlank rest with
          | ']' :: rest => (array [] true, some rest)
          | cs =>
              let (items, rest) := readItems fuel cs
              (array items rest.isSome, rest)
      | '{' :: rest =>
          match skipBlank rest with
          | '}' :: rest => (object [] true, some rest)
          | cs =>
              let (members, rest) := readMembers fuel cs
              (object members rest.isSome, rest)
      | cs =>
          match Numeral.read? cs with
          | some (numeral, rest) => (number numeral, some rest)
          | none => (broken, none)

/-- Reads the values of an array up to its end. -/
def readItems : Nat → List Char → List Draft × Option (List Char)
  | 0, _ => ([], none)
  | fuel + 1, cs =>
      match readValue fuel cs with
      | (item, none) => ([item], none)
      | (item, some rest) =>
          match skipBlank rest with
          | ']' :: rest => ([item], some rest)
          | ',' :: rest =>
              let (items, rest) := readItems fuel rest
              (item :: items, rest)
          | _ => ([item], none)

/-- Reads the members of an object up to its end. -/
def readMembers : Nat → List Char → List (Option String × Draft) × Option (List Char)
  | 0, _ => ([], none)
  | fuel + 1, cs =>
      match skipBlank cs with
      | '"' :: rest =>
          match readText? rest with
          | none => ([], none)
          | some (name, rest) =>
              match skipBlank rest with
              | ':' :: rest =>
                  match readValue fuel rest with
                  | (value, none) => ([(name, value)], none)
                  | (value, some rest) =>
                      match skipBlank rest with
                      | '}' :: rest => ([(name, value)], some rest)
                      | ',' :: rest =>
                          let (members, rest) := readMembers fuel rest
                          ((name, value) :: members, rest)
                      | _ => ([(name, value)], none)
              | _ => ([(name, broken)], none)
      | _ => ([], none)

end

/-- The draft of a whole text, and whether only blanks follow the value. -/
def read (source : String) : Draft × Bool :=
  let cs := source.toList
  match readValue (2 * cs.length + 2) cs with
  | (draft, none) => (draft, false)
  | (draft, some rest) => (draft, (skipBlank rest).isEmpty)

mutual

/-- A draft without any fault of form, in which containers stand at most `depth` deep, no number
is out of range and no half of a surrogate pair is alone. -/
def isSound (depth : Nat) : Draft → Bool
  | null | bool _ => true
  | number numeral => numeral.inRange
  | text content => content.isSome
  | array items closed => decide (0 < depth) && itemsSound (depth - 1) items && closed
  | object members closed => decide (0 < depth) && membersSound (depth - 1) members && closed
  | broken => false

def itemsSound (depth : Nat) : List Draft → Bool
  | [] => true
  | item :: rest => isSound depth item && itemsSound depth rest

def membersSound (depth : Nat) : List (Option String × Draft) → Bool
  | [] => true
  | member :: rest => memberSound depth member && membersSound depth rest

/-- The name and the value of a member are sound. -/
def memberSound (depth : Nat) : Option String × Draft → Bool
  | (name, value) => name.isSome && isSound depth value

end

mutual

/-- A draft that reached its end. Nothing else is asked of a value that is passed over. -/
def isComplete : Draft → Bool
  | null | bool _ | number _ | text _ => true
  | array items closed => itemsComplete items && closed
  | object members closed => membersComplete members && closed
  | broken => false

/-- Every value of an array reached its end. -/
def itemsComplete : List Draft → Bool
  | [] => true
  | item :: rest => isComplete item && itemsComplete rest

/-- Every member of an object reached its end. -/
def membersComplete : List (Option String × Draft) → Bool
  | [] => true
  | member :: rest => memberComplete member && membersComplete rest

/-- The value of a member reached its end. -/
def memberComplete : Option String × Draft → Bool
  | (_, value) => isComplete value

end

end Draft

end BlastRadius.Json
