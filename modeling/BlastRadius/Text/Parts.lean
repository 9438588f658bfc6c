/-!
Texts cut at a separator.
-/

namespace BlastRadius.Text

variable {α : Type} [DecidableEq α]

/-- The parts between the separators. There is one part more than there are separators. -/
def parts (separator : α) : List α → List (List α)
  | [] => [[]]
  | c :: rest =>
      if c = separator then [] :: parts separator rest
      else
        match parts separator rest with
        | [] => [[c]]
        | part :: others => (c :: part) :: others

theorem parts_ne_nil (separator : α) (cs : List α) : parts separator cs ≠ [] := by
  induction cs with
  | nil => simp [parts]
  | cons c rest ih =>
      simp only [parts]
      split
      · simp
      · split <;> simp

end BlastRadius.Text
