import BlastRadius.Json.Precision
import BlastRadius.Text.Integer

/-!
The numerals of JSON: an optional sign, digits without a leading zero, and an optional fraction and
exponent.

A numeral stands for a natural when it has neither sign, fraction nor exponent. Any other magnitude
is a significand of one word times a power of ten. Each of the two is rounded to double precision,
and so is their product: a numeral is out of range when that product leaves the double precision
numbers. So the answer near the end of the range depends on how a magnitude is written.
-/

namespace BlastRadius.Json

/-- A numeral as it was read. -/
structure Numeral where
  negative : Bool
  whole : List Char
  fraction : Option (List Char)
  /-- Whether the exponent is negative, and its digits. -/
  exponent : Option (Bool × List Char)
  deriving DecidableEq, Repr

namespace Numeral

/-- The digits at the start of a text, and the rest. -/
def digits (cs : List Char) : List Char × List Char :=
  (cs.takeWhile Char.isDigit, cs.dropWhile Char.isDigit)

/-- Reads the digits before the point. A zero stands alone. -/
def readWhole? : List Char → Option (List Char × List Char)
  | '0' :: rest => if (rest.headD ' ').isDigit then none else some (['0'], rest)
  | cs => if (digits cs).1.isEmpty then none else some (digits cs)

def readFraction? : List Char → Option (Option (List Char) × List Char)
  | '.' :: rest => if (digits rest).1.isEmpty then none else
      some (some (digits rest).1, (digits rest).2)
  | cs => some (none, cs)

/-- Reads the sign of an exponent, if there is one. -/
def readSign : List Char → Bool × List Char
  | '+' :: rest => (false, rest)
  | '-' :: rest => (true, rest)
  | cs => (false, cs)

def readExponent? : List Char → Option (Option (Bool × List Char) × List Char)
  | c :: rest =>
      if c = 'e' ∨ c = 'E' then
        let (negative, cs) := readSign rest
        if (digits cs).1.isEmpty then none else some (some (negative, (digits cs).1), (digits cs).2)
      else some (none, c :: rest)
  | [] => some (none, [])

def readUnsigned? (negative : Bool) (cs : List Char) : Option (Numeral × List Char) := do
  let (whole, cs) ← readWhole? cs
  let (fraction, cs) ← readFraction? cs
  let (exponent, cs) ← readExponent? cs
  return (⟨negative, whole, fraction, exponent⟩, cs)

def read? : List Char → Option (Numeral × List Char)
  | '-' :: rest => readUnsigned? true rest
  | cs => readUnsigned? false cs

def natural? (numeral : Numeral) : Option Nat :=
  match numeral with
  | ⟨false, whole, none, none⟩ => some (Text.ofDigits whole)
  | _ => none

/-- Appends digits to a significand while it fits into a word: the significand, and the digits that
are left from the first one that does not fit. -/
def appendDigits : Nat → List Char → Nat × List Char
  | significand, [] => (significand, [])
  | significand, c :: cs =>
      let longer := 10 * significand + (c.toNat - '0'.toNat)
      if longer < UInt64.size then appendDigits longer cs else (significand, c :: cs)

/-- The power of ten that an exponent stands for. -/
def power (numeral : Numeral) : Int :=
  match numeral.exponent with
  | none => 0
  | some (true, ds) => -(Text.ofDigits ds : Int)
  | some (false, ds) => Text.ofDigits ds

/-- A magnitude as a significand of one word and a power of ten. A digit before the point that does
not fit raises the power by one, a digit after the point that fits lowers it by one, and the digits
after the first one of the fraction that does not fit are passed over. -/
def scaled (numeral : Numeral) : Nat × Int :=
  let fraction := numeral.fraction.getD []
  let (whole, dropped) := appendDigits 0 numeral.whole
  let (significand, ignored) := appendDigits whole fraction
  (significand, numeral.power + dropped.length - (fraction.length - ignored.length : Nat))

/-- Whether a magnitude stays within the double precision numbers. A significand alone, or one that
is divided by a power of ten, always does. -/
def inRange (numeral : Numeral) : Bool :=
  let (significand, scale) := numeral.scaled
  if significand = 0 ∨ scale ≤ 0 then true
  else if 308 < scale then false
  else
    Precision.round significand * Precision.round (Nat.pow 10 scale.toNat) < Precision.rangeEnd

end Numeral

end BlastRadius.Json
