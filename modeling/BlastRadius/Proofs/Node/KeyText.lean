import BlastRadius.Node.Key
import Mathlib.Data.List.Basic

/-!
The canonical text of a key determines the key. The name of the kind ends at the first colon, and
each part is as long as the number before it says, so no character within a part can be taken for
a separator.
-/

namespace BlastRadius.NodeKey

theorem append_cons_inj {a : Char} {l₁ l₂ r₁ r₂ : List Char} (h₁ : a ∉ l₁)
    (h₂ : a ∉ l₂)
    (h : l₁ ++ a :: r₁ = l₂ ++ a :: r₂) : l₁ = l₂ ∧ r₁ = r₂ := by
  induction l₁ generalizing l₂ with
  | nil =>
      cases l₂ with
      | nil => exact ⟨rfl, (List.cons.inj h).2⟩
      | cons x l₂ => exact absurd ((List.cons.inj h).1 ▸ List.mem_cons_self) h₂
  | cons x l₁ ih =>
      cases l₂ with
      | nil => exact absurd ((List.cons.inj h).1 ▸ List.mem_cons_self) h₁
      | cons y l₂ =>
          obtain ⟨rfl, rest⟩ := List.cons.inj h
          obtain ⟨rfl, rfl⟩ := ih (fun mem => h₁ (List.mem_cons_of_mem _ mem))
            (fun mem => h₂ (List.mem_cons_of_mem _ mem)) rest
          exact ⟨rfl, rfl⟩

theorem append_inj_of_size {p q : String} {x y : List Char}
    (size : p.utf8ByteSize = q.utf8ByteSize) (h : p.toList ++ x = q.toList ++ y) :
    p = q ∧ x = y := by
  have empty {s t : String} {m : List Char} (split : t.toList = s.toList ++ m)
      (size : s.utf8ByteSize = t.utf8ByteSize) : m = [] := by
    have eq : t = s ++ String.ofList m := String.toList_inj.mp (by simp [split])
    rw [eq, String.utf8ByteSize_append] at size
    have none : (String.ofList m).utf8ByteSize = 0 := by omega
    simpa using String.utf8ByteSize_eq_zero_iff.mp none
  rcases List.append_eq_append_iff.mp h with ⟨m, split, rfl⟩ | ⟨m, split, rfl⟩
  · obtain rfl := empty split size
    exact ⟨String.toList_inj.mp (by simpa using split.symm), rfl⟩
  · obtain rfl := empty split size.symm
    exact ⟨String.toList_inj.mp (by simpa using split), rfl⟩

theorem toList_framed (part : String) : (framed part).toList =
    ':' :: (Nat.toDigits 10 part.utf8ByteSize ++ '#' :: part.toList) := by
  simp [framed, toString, Nat.toList_repr]

theorem hash_not_mem_toDigits (n : Nat) : '#' ∉ Nat.toDigits 10 n := fun mem =>
  absurd (Nat.isDigit_of_mem_toDigits (by decide) (by decide) mem) (by decide)

/-- A framed part can be told from what follows it. -/
theorem framed_append_inj {p q : String} {x y : List Char}
    (h : (framed p).toList ++ x = (framed q).toList ++ y) : p = q ∧ x = y := by
  simp only [toList_framed, List.cons_append, List.append_assoc, List.cons.injEq, true_and] at h
  obtain ⟨digits, rest⟩ := append_cons_inj (hash_not_mem_toDigits _) (hash_not_mem_toDigits _) h
  refine append_inj_of_size ?_ rest
  rw [← Nat.ofDigitChars_ten_toDigits (n := p.utf8ByteSize), digits,
    Nat.ofDigitChars_ten_toDigits]

theorem toList_canonical (key : NodeKey) : key.canonical.toList =
    key.kind.name.toList ++ key.parts.flatMap fun part => (framed part).toList := by
  have fold (parts : List String) (text : String) :
      (parts.foldl (fun text part => text ++ framed part) text).toList =
        text.toList ++ parts.flatMap fun part => (framed part).toList := by
    induction parts generalizing text with
    | nil => simp
    | cons part rest ih => simp [ih]
  exact fold key.parts key.kind.name

theorem parts_inj {ps qs : List String} (length : ps.length = qs.length)
    (h : (ps.flatMap fun part => (framed part).toList) =
      qs.flatMap fun part => (framed part).toList) : ps = qs := by
  induction ps generalizing qs with
  | nil => exact (List.length_eq_zero_iff.mp length.symm).symm
  | cons p ps ih =>
      obtain _ | ⟨q, qs⟩ := qs
      · simp at length
      · obtain ⟨rfl, rest⟩ := framed_append_inj h
        rw [ih (by simpa using length) rest]

def partCount : NodeKind → Nat
  | .library | .component | .asset | .endpoint => 2
  | _ => 1

theorem length_parts (key : NodeKey) : key.parts.length = partCount key.kind := by
  cases key <;> rfl

theorem parts_ne_nil (key : NodeKey) : key.parts ≠ [] := by
  cases key <;> exact List.cons_ne_nil _ _

theorem colon_not_mem_name (kind : NodeKind) : ':' ∉ kind.name.toList := by
  cases kind <;> decide

theorem name_injective : Function.Injective NodeKind.name := by
  intro a b h
  cases a <;> cases b <;> first | rfl | exact absurd h (by decide)

theorem toString_injective {a b : NodeId} (h : toString a = toString b) : a = b := by
  have digits : Nat.toDigits 10 a.toNat = Nat.toDigits 10 b.toNat := by
    simpa [toString, Nat.toList_repr] using congrArg String.toList h
  rw [← NodeId.toNat_inj, ← Nat.ofDigitChars_ten_toDigits (n := a.toNat), digits,
    Nat.ofDigitChars_ten_toDigits]

theorem eq_of_parts {a b : NodeKey} (kind : a.kind = b.kind) (parts : a.parts = b.parts) :
    a = b := by
  rcases a with _ | ⟨_, _⟩ | ⟨_, _⟩ | ⟨_, _⟩ | ⟨name, owner⟩ | _ | _ <;>
    rcases b with _ | ⟨_, _⟩ | ⟨_, _⟩ | ⟨_, _⟩ | ⟨name', owner'⟩ | _ | _ <;>
    simp only [NodeKey.kind, reduceCtorEq] at kind
  case endpoint.endpoint =>
    simp only [NodeKey.parts, List.cons.injEq, and_true] at parts
    rw [parts.1, toString_injective parts.2]
  all_goals simpa [NodeKey.parts] using parts

/-- No two keys share a canonical text. -/
theorem canonical_injective : Function.Injective canonical := by
  intro a b h
  have texts := congrArg String.toList h
  rw [toList_canonical, toList_canonical] at texts
  obtain ⟨p, ps, hp⟩ := List.exists_cons_of_ne_nil (parts_ne_nil a)
  obtain ⟨q, qs, hq⟩ := List.exists_cons_of_ne_nil (parts_ne_nil b)
  have kind : a.kind = b.kind := by
    rw [hp, hq] at texts
    simp only [List.flatMap_cons, toList_framed, List.cons_append] at texts
    exact name_injective (String.toList_inj.mp
      (append_cons_inj (colon_not_mem_name _) (colon_not_mem_name _) texts).1)
  rw [kind] at texts
  refine eq_of_parts kind (parts_inj ?_ (List.append_cancel_left texts))
  rw [length_parts, length_parts, kind]

end BlastRadius.NodeKey
