import BlastRadius.Text.Hexadecimal

/-!
JSON values and their two written forms: compact, without any blank, and indented by two spaces a
level. The members of an object keep their order.
-/

namespace BlastRadius

/-- A JSON value whose numbers are naturals. -/
inductive Json where
  | null
  | bool (value : Bool)
  | num (value : Nat)
  | str (value : String)
  | arr (items : List Json)
  | obj (members : List (String × Json))
  deriving Repr, Inhabited

namespace Json

/-- A character within quotes. Quotes, backslashes and control characters are escaped, and
nothing else is. -/
def escaped (c : Char) : List Char :=
  if c = '"' then ['\\', '"']
  else if c = '\\' then ['\\', '\\']
  else if c = '\x08' then ['\\', 'b']
  else if c = '\x0c' then ['\\', 'f']
  else if c = '\n' then ['\\', 'n']
  else if c = '\r' then ['\\', 'r']
  else if c = '\t' then ['\\', 't']
  else if c.toNat < 32 then
    ['\\', 'u', '0', '0', Text.hexDigit (c.toNat / 16), Text.hexDigit c.toNat]
  else [c]

def quoted (text : String) : List Char :=
  '"' :: text.toList.flatMap escaped ++ ['"']

def decimal (n : Nat) : List Char := Nat.toDigits 10 n

/-- `true` or `false`. -/
def truth (b : Bool) : List Char :=
  if b then ['t', 'r', 'u', 'e'] else ['f', 'a', 'l', 's', 'e']

mutual

def chars : Json → List Char
  | null => ['n', 'u', 'l', 'l']
  | bool b => truth b
  | num n => decimal n
  | str s => quoted s
  | arr items => '[' :: itemsChars items ++ [']']
  | obj members => '{' :: membersChars members ++ ['}']

/-- The values of an array, separated by commas. -/
def itemsChars : List Json → List Char
  | [] => []
  | item :: [] => chars item
  | item :: rest => chars item ++ ',' :: itemsChars rest

/-- The members of an object, separated by commas. -/
def membersChars : List (String × Json) → List Char
  | [] => []
  | member :: [] => memberChars member
  | member :: rest => memberChars member ++ ',' :: membersChars rest

def memberChars : String × Json → List Char
  | (name, value) => quoted name ++ ':' :: chars value

end

def compact (value : Json) : String := String.ofList value.chars

/-- A line feed and the blanks that start a line at a level. -/
def lineStart (level : Nat) : List Char :=
  '\n' :: List.replicate (2 * level) ' '

mutual

/-- The indented form of a value that stands at a level. Empty arrays and objects
stay on one line. -/
def indentedChars (level : Nat) : Json → List Char
  | null => ['n', 'u', 'l', 'l']
  | bool b => truth b
  | num n => decimal n
  | str s => quoted s
  | arr [] => ['[', ']']
  | arr (item :: rest) =>
      '[' :: indentedItems (level + 1) (item :: rest) ++ lineStart level ++ [']']
  | obj [] => ['{', '}']
  | obj (member :: rest) =>
      '{' :: indentedMembers (level + 1) (member :: rest) ++ lineStart level ++ ['}']

/-- The values of an array, each on a line of its own. -/
def indentedItems (level : Nat) : List Json → List Char
  | [] => []
  | item :: [] => lineStart level ++ indentedChars level item
  | item :: rest => lineStart level ++ indentedChars level item ++ ',' :: indentedItems level rest

/-- The members of an object, each on a line of its own. -/
def indentedMembers (level : Nat) : List (String × Json) → List Char
  | [] => []
  | member :: [] => indentedMember level member
  | member :: rest => indentedMember level member ++ ',' :: indentedMembers level rest

/-- A member on a line of its own. -/
def indentedMember (level : Nat) : String × Json → List Char
  | (name, value) => lineStart level ++ quoted name ++ ':' :: ' ' :: indentedChars level value

end

def indented (value : Json) : String := String.ofList (value.indentedChars 0)

end Json

end BlastRadius
