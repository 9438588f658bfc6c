import BlastRadius.Text.Parts
import BlastRadius.Text.Percent

/-!
Addresses of resources: a scheme and a host, which say nothing about the resource, and a path of
segments between slashes, in which bytes may be escaped.
-/

namespace BlastRadius.Http.Address

def isSchemeChar (c : Char) : Bool :=
  c.isAlphanum || c == '+' || c == '-' || c == '.' || c == '~'

def endsHost (c : Char) : Bool := c == '/' || c == '?' || c == '#'

/-- An address after its scheme and host. One that has neither and does not start with a slash is a
host alone. -/
def afterHost : List Char → List Char
  | '/' :: rest => '/' :: rest
  | cs =>
      match cs.dropWhile isSchemeChar with
      | ':' :: '/' :: '/' :: rest => rest.dropWhile fun c => !endsHost c
      | _ => []

/-- The path of an address ends before a query or a fragment. -/
def path (address : String) : List Char :=
  (afterHost address.toList).takeWhile fun c => c != '?' && c != '#'

/-- The segments of the path of an address, as they are written. -/
def segments (address : String) : List String :=
  match Text.parts '/' (path address) with
  | [] :: others => others.map String.ofList
  | _ => []

/-- The text that a segment stands for, unless its bytes are no text. -/
def decoded? (segment : String) : Option String :=
  String.fromUTF8? ⟨(Text.unescaped (Text.bytes segment)).toArray⟩

end BlastRadius.Http.Address
