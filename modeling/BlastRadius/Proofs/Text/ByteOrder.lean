import BlastRadius.Text.Percent
import Mathlib.Data.List.Lex
import Mathlib.Data.String.Basic

/-!
Texts in the order of their code points are in the order of the bytes that encode them.
-/

namespace BlastRadius

section Codes

variable {α β : Type} [LinearOrder α] [LT β] {code : α → List β} {word word' : List α}

/-- Codes of letters, of which none is the beginning of another, keep the order of words. -/
theorem flatMap_lt (nonempty : ∀ a, code a ≠ [])
    (ordered : ∀ {a b}, a < b → ∀ l l', code a ++ l < code b ++ l') (less : word < word') :
    word.flatMap code < word'.flatMap code := by
  induction less with
  | nil =>
      rename_i a rest
      obtain ⟨b, bs, same⟩ := List.exists_cons_of_ne_nil (nonempty a)
      rw [List.flatMap_cons, same]
      exact List.nil_lt_cons b (bs ++ rest.flatMap code)
  | rel less => exact ordered less _ _
  | cons _ ih => exact List.append_left_lt ih

theorem flatMap_lt_iff [Std.Asymm fun a b : β => a < b] (nonempty : ∀ a, code a ≠ [])
    (ordered : ∀ {a b}, a < b → ∀ l l', code a ++ l < code b ++ l') :
    word.flatMap code < word'.flatMap code ↔ word < word' := by
  refine ⟨fun less => ?_, flatMap_lt nonempty ordered⟩
  rcases lt_trichotomy word word' with before | rfl | after
  · exact before
  · exact absurd less (List.lt_asymm less)
  · exact absurd less (List.lt_asymm (flatMap_lt nonempty ordered after))

end Codes

namespace Text

theorem utf8EncodeChar_lt {a b : Char} (less : a < b) (l l' : List UInt8) :
    String.utf8EncodeChar a ++ l < String.utf8EncodeChar b ++ l' := by
  have small (c : Char) : c.val.toNat < 1114112 := by
    rcases c.valid with low | ⟨_, high⟩
    · exact lt_trans low (by decide)
    · exact high
  have less : a.val.toNat < b.val.toNat := less
  have first := small a
  have second := small b
  have two (n : Nat) : n / 4096 = n / 64 / 64 := by omega
  have three (n : Nat) : n / 262144 = n / 64 / 64 / 64 := by omega
  simp only [String.utf8EncodeChar, two, three]
  generalize a.val.toNat = v at *
  generalize b.val.toNat = w at *
  have lt {m n : Nat} (hm : m < 256) (hn : n < 256) : UInt8.ofNat m < UInt8.ofNat n ↔ m < n := by
    rw [UInt8.lt_iff_toNat_lt, UInt8.toNat_ofNat_of_lt' hm, UInt8.toNat_ofNat_of_lt' hn]
  have eq {m n : Nat} (hm : m < 256) (hn : n < 256) : UInt8.ofNat m = UInt8.ofNat n ↔ m = n := by
    rw [← UInt8.toNat_inj, UInt8.toNat_ofNat_of_lt' hm, UInt8.toNat_ofNat_of_lt' hn]
  split_ifs <;> simp (disch := omega) only [List.cons_append, List.cons_lt_cons_iff, lt,
    eq] <;> omega

theorem lt_iff_bytes {text other : String} : text < other ↔ bytes text < bytes other := by
  rw [String.lt_iff_toList_lt]
  exact (flatMap_lt_iff (fun _ => String.utf8EncodeChar_ne_nil) utf8EncodeChar_lt).symm

end Text

end BlastRadius
