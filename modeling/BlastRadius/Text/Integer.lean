/-!
Decimal integers as people write them: ASCII digits, leading zeros allowed, after an optional sign.
-/

namespace BlastRadius.Text

def ofDigits (digits : List Char) : Nat :=
  digits.foldl (fun n c => 10 * n + (c.toNat - '0'.toNat)) 0

/-- Reads a number that consists of digits only. -/
def digits? (cs : List Char) : Option Nat :=
  if cs.isEmpty || !cs.all Char.isDigit then none else some (ofDigits cs)

/-- Reads a natural, before which a plus sign may stand. -/
def natural? (text : String) : Option Nat :=
  match text.toList with
  | '+' :: cs => digits? cs
  | cs => digits? cs

/-- Reads an integer, before which a sign may stand. -/
def integer? (text : String) : Option Int :=
  match text.toList with
  | '-' :: cs => (digits? cs).map fun n => -(n : Int)
  | '+' :: cs => (digits? cs).map Int.ofNat
  | cs => (digits? cs).map Int.ofNat

def naturalBelow? (bound : Nat) (text : String) : Option Nat :=
  (natural? text).filter fun n => decide (n < bound)

/-- Reads a natural below a bound that may have either sign, so that zero has three spellings. -/
def signedBelow? (bound : Nat) (text : String) : Option Nat :=
  (integer? text).bind fun n => if 0 ≤ n ∧ n < bound then some n.toNat else none

end BlastRadius.Text
