import BlastRadius.Text.Hexadecimal

/-!
Texts as bytes, and escapes of bytes: a percent sign and two hexadecimal digits. Main statement:
`unescaped_of_forall_ne`, by which bytes without a percent sign stand for themselves.
-/

namespace BlastRadius.Text

def bytes (text : String) : List UInt8 := text.toList.flatMap String.utf8EncodeChar

/-- The value of a byte that is a hexadecimal digit. -/
def hexByte? (byte : UInt8) : Option Nat := hexValue? (Char.ofNat byte.toNat)

/-- The bytes that escapes stand for. A percent sign without two hexadecimal digits after it stands
for itself. -/
def unescaped : List UInt8 → List UInt8
  | [] => []
  | [a] => [a]
  | [a, b] => [a, b]
  | a :: b :: c :: rest =>
      match decide (a.toNat = '%'.toNat), hexByte? b, hexByte? c with
      | true, some high, some low => UInt8.ofNat (16 * high + low) :: unescaped rest
      | _, _, _ => a :: unescaped (b :: c :: rest)

/-- Bytes without a percent sign stand for themselves. -/
theorem unescaped_of_forall_ne {bytes : List UInt8}
    (h : ∀ byte ∈ bytes, byte.toNat ≠ '%'.toNat) :
    unescaped bytes = bytes := by
  fun_induction unescaped bytes with
  | case1 | case2 | case3 => rfl
  | case4 a b c rest _ _ _ _ ha => exact absurd (of_decide_eq_true ha) (h a (by simp))
  | case5 a b c rest _ ih =>
      rw [ih fun byte hbyte => h byte (List.mem_cons_of_mem a hbyte)]

end BlastRadius.Text
