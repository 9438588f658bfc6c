/-!
Comparison of ASCII names without regard to case. Letters outside ASCII are only equal to
themselves.
-/

namespace BlastRadius.Text

/-- Two texts agree up to the case of their ASCII letters. -/
def sameUpToCase (s t : String) : Bool :=
  s.toList.map Char.toLower == t.toList.map Char.toLower

end BlastRadius.Text
