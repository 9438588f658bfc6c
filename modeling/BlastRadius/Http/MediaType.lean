import BlastRadius.Text.Case

/-!
Media types: a type and a subtype of token characters, joined by a slash, and parameters after
semicolons. The part of a subtype after its last plus sign is its suffix.
-/

namespace BlastRadius.Http

/-- A media type without its parameters. -/
structure MediaType where
  type : String
  subtype : String
  suffix : Option String
  deriving DecidableEq, Repr

namespace MediaType

def isToken (c : Char) : Bool :=
  c.isAlphanum || "!#$%&'*+-.^_`|~".toList.contains c

def isQuotable (c : Char) : Bool := ' ' ≤ c ∧ c ≤ '~'

/-- Splits a list before its first element for which `p` does not hold. -/
def split (p : Char → Bool) (cs : List Char) : List Char × List Char :=
  (cs.takeWhile p, cs.dropWhile p)

/-- What follows a quoted value, after its opening quote. A quote that comes first
stands for itself. -/
def afterQuoted? : List Char → Option (List Char)
  | [] => none
  | first :: rest =>
      if isQuotable first then
        match split (fun c => isQuotable c && c != '"') rest with
        | (_, '"' :: rest) => some (rest.dropWhile (· == ' '))
        | _ => none
      else none

/-- What follows the value of a parameter. A value without quotes may only be empty at the end. -/
def afterValue? : List Char → Option (List Char)
  | '"' :: rest => afterQuoted? rest
  | cs =>
      match split isToken cs with
      | (value, rest) => if value.isEmpty && !rest.isEmpty then none else some rest

/-- Whether a text is a list of parameters. A semicolon stands between two parameters and may
follow the last one. The fuel bounds their number. -/
def areParameters : Nat → List Char → Bool
  | 0, _ => false
  | fuel + 1, cs =>
      match cs.dropWhile (· == ' ') with
      | [] => true
      | cs =>
          match split isToken cs with
          | (name, '=' :: rest) =>
              !name.isEmpty &&
                match afterValue? rest with
                | some [] => true
                | some (';' :: rest) => areParameters fuel rest
                | _ => false
          | _ => false

/-- Splits a subtype before the last plus sign that is not its first character. -/
def ofNames (type subtype : List Char) : MediaType :=
  let (last, before) := split (· != '+') subtype.reverse
  match before with
  | _ :: (c :: cs) =>
      ⟨String.ofList type, String.ofList (c :: cs).reverse, some (String.ofList last.reverse)⟩
  | _ => ⟨String.ofList type, String.ofList subtype, none⟩

def read? (text : String) : Option MediaType :=
  match split isToken text.toList with
  | (type, '/' :: rest) =>
      if type.isEmpty then none
      else
        match split isToken rest with
        | (subtype, []) => some (ofNames type subtype)
        | (subtype, ';' :: rest) =>
            if !subtype.isEmpty && areParameters (rest.length + 1) rest then
              some (ofNames type subtype)
            else none
        | _ => none
  | _ => none

/-- Whether values of a media type are JSON. -/
def isJson (media : MediaType) : Bool :=
  Text.sameUpToCase media.type "application" &&
    (Text.sameUpToCase media.subtype "json" ||
      media.suffix.any fun suffix => Text.sameUpToCase suffix "json")

end MediaType

end BlastRadius.Http
