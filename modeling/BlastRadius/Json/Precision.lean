/-!
Naturals in double precision: 53 significant bits, and a magnitude that ends at `rangeEnd`.

A natural with more bits is rounded to the nearest one that fits, and of two nearest ones to the one
whose last bit is zero. `round_of_lt` says that a natural with few enough bits stays as it is.
-/

namespace BlastRadius.Json.Precision

/-- The number of significant bits. -/
def bits : Nat := 53

/-- The natural nearest to a quotient. Of two nearest ones it is the even one. -/
def nearestQuotient (n divisor : Nat) : Nat :=
  let quotient := n / divisor
  let rest := n % divisor
  if 2 * rest < divisor ∨ (2 * rest = divisor ∧ quotient % 2 = 0) then quotient
  else quotient + 1

/-- The natural nearest to `n` that has no more than `bits` significant bits. -/
def round (n : Nat) : Nat :=
  let unit := Nat.pow 2 (n.log2 + 1 - bits)
  nearestQuotient n unit * unit

/-- The least magnitude that rounds beyond the largest double precision number: half a unit of its
last bit above it. -/
def rangeEnd : Nat := Nat.pow 2 1024 - Nat.pow 2 970

theorem nearestQuotient_one (n : Nat) : nearestQuotient n 1 = n := by
  simp [nearestQuotient, Nat.mod_one]

/-- A natural that fits is not changed by rounding. -/
theorem round_of_lt {n : Nat} (h : n.log2 < bits) : round n = n := by
  have hunit : n.log2 + 1 - bits = 0 := by omega
  simp only [round, hunit]
  exact (Nat.mul_one _).trans (nearestQuotient_one n)

end BlastRadius.Json.Precision
