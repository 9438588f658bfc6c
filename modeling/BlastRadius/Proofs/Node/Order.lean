import BlastRadius.Node.Id
import Mathlib.Data.Finset.Sort
import Mathlib.Data.Set.Card

/-!
Identifiers are finitely many and linearly ordered, so a set of them has one ascending list. The
lists of identifiers that a store answers with are such lists.
-/

namespace BlastRadius.NodeId

instance : LinearOrder NodeId where
  le := (· ≤ ·)
  lt := (· < ·)
  le_refl a := Nat.le_refl a.toNat
  le_trans _ _ _ := Nat.le_trans
  lt_iff_le_not_ge a b := Nat.lt_iff_le_and_not_ge (m := a.toNat) (n := b.toNat)
  le_antisymm _ _ hab hba := toNat_inj.mp (Nat.le_antisymm hab hba)
  le_total a b := Nat.le_total a.toNat b.toNat
  toDecidableLE := inferInstance

instance : Finite NodeId :=
  Finite.of_injective (fun id : NodeId => (⟨id.toNat, id.toNat_lt⟩ : Fin count)) fun _ _ h =>
    toNat_inj.mp (congrArg Fin.val h)

noncomputable def listed (ids : Set NodeId) : List NodeId :=
  ids.toFinite.toFinset.sort

@[simp] theorem mem_listed {ids : Set NodeId} {id : NodeId} : id ∈ listed ids ↔ id ∈ ids := by
  simp [listed]

theorem listed_pairwise (ids : Set NodeId) : (listed ids).Pairwise (· < ·) :=
  (Finset.sortedLT_sort _).pairwise

theorem listed_nodup (ids : Set NodeId) : (listed ids).Nodup :=
  Finset.sort_nodup _ _

theorem eq_listed {l : List NodeId} {ids : Set NodeId} (sorted : l.Pairwise (· < ·))
    (mem : ∀ id, id ∈ l ↔ id ∈ ids) : l = listed ids := by
  apply List.Perm.eq_of_pairwise' (r := (· < ·)) sorted (listed_pairwise ids)
  exact (List.perm_ext_iff_of_nodup sorted.nodup (listed_nodup ids)).mpr fun id => by simp [mem]

theorem length_listed (ids : Set NodeId) : (listed ids).length = ids.ncard := by
  rw [listed, Finset.length_sort, Set.ncard_eq_toFinset_card ids ids.toFinite]

theorem length_eq_ncard {l : List NodeId} {ids : Set NodeId} (nodup : l.Nodup)
    (mem : ∀ id, id ∈ l ↔ id ∈ ids) : l.length = ids.ncard := by
  have perm : l.Perm (listed ids) := (List.perm_ext_iff_of_nodup nodup (listed_nodup ids)).mpr
    fun id => (mem id).trans mem_listed.symm
  exact perm.length_eq.trans (length_listed ids)

theorem ncard_le (ids : Set NodeId) : ids.ncard ≤ count := by
  have nodup : ((listed ids).map toNat).Nodup :=
    (listed_nodup ids).map fun _ _ => toNat_inj.mp
  have below : (listed ids).map toNat ⊆ List.range count := by
    intro n mem
    obtain ⟨id, _, rfl⟩ := List.mem_map.mp mem
    exact List.mem_range.mpr id.toNat_lt
  have bound := (nodup.subperm below).length_le
  rwa [List.length_map, length_listed, List.length_range] at bound

theorem listed_eq_nil {ids : Set NodeId} : listed ids = [] ↔ ids = ∅ := by
  rw [← List.length_eq_zero_iff, length_listed, Set.ncard_eq_zero]

theorem listed_injective : Function.Injective listed := fun a b same => by
  ext id
  rw [← mem_listed, same, mem_listed]

theorem head?_listed {ids : Set NodeId} {id : NodeId} :
    (listed ids).head? = some id ↔ IsLeast ids id := by
  have sorted := listed_pairwise ids
  constructor
  · intro first
    obtain ⟨rest, elements⟩ := List.head?_eq_some_iff.mp first
    rw [elements, List.pairwise_cons] at sorted
    have mem (other : NodeId) : other ∈ ids ↔ other = id ∨ other ∈ rest := by
      rw [← mem_listed, elements, List.mem_cons]
    refine ⟨(mem id).mpr (Or.inl rfl), fun other hother => ?_⟩
    rcases (mem other).mp hother with rfl | later
    · exact le_rfl
    · exact (sorted.1 other later).le
  · rintro ⟨mem, least⟩
    cases elements : listed ids with
    | nil => exact absurd mem (listed_eq_nil.mp elements ▸ Set.notMem_empty id)
    | cons first rest =>
        rw [elements, List.pairwise_cons] at sorted
        have below : id ≤ first := least (mem_listed.mp (elements ▸ List.mem_cons_self))
        rcases List.mem_cons.mp (elements ▸ mem_listed.mpr mem) with rfl | later
        · rfl
        · exact absurd (sorted.1 id later) (not_lt.mpr below)

theorem exists_isLeast {ids : Set NodeId} (nonempty : ids ≠ ∅) : ∃ id, IsLeast ids id := by
  cases first : (listed ids).head? with
  | none => exact absurd (listed_eq_nil.mp (List.head?_eq_none_iff.mp first)) nonempty
  | some id => exact ⟨id, head?_listed.mp first⟩

theorem filter_listed (ids : Set NodeId) (p : NodeId → Bool) :
    (listed ids).filter p = listed {id ∈ ids | p id = true} :=
  eq_listed ((listed_pairwise ids).filter p) fun id => by simp

theorem find?_listed (ids : Set NodeId) (p : NodeId → Bool) :
    (listed ids).find? p = (listed {id ∈ ids | p id = true}).head? := by
  rw [← filter_listed, List.head?_filter]

theorem insertAscending_pairwise {l : List NodeId} (sorted : l.Pairwise (· < ·)) (id : NodeId) :
    (insertAscending id l).Pairwise (· < ·) := by
  induction l with
  | nil => simp [insertAscending]
  | cons other rest ih =>
      obtain ⟨above, sorted⟩ := List.pairwise_cons.mp sorted
      rw [insertAscending]
      split
      · rename_i lt
        refine List.pairwise_cons.mpr ⟨fun x hx => ?_, ih sorted⟩
        rcases mem_insertAscending.mp hx with rfl | hx
        · exact lt
        · exact above x hx
      · split
        · exact List.pairwise_cons.mpr ⟨above, sorted⟩
        · rename_i notLt ne
          have lt : id < other := lt_of_le_of_ne (not_lt.mp notLt) (Ne.symm ne)
          refine List.pairwise_cons.mpr ⟨fun x hx =>
            ?_, List.pairwise_cons.mpr ⟨above, sorted⟩⟩
          rcases List.mem_cons.mp hx with rfl | hx
          · exact lt
          · exact lt.trans (above x hx)

theorem ascending_pairwise (ids : List NodeId) : (ascending ids).Pairwise (· < ·) := by
  induction ids with
  | nil => exact List.Pairwise.nil
  | cons id rest ih => exact insertAscending_pairwise ih id

theorem ascending_eq_listed (ids : List NodeId) : ascending ids = listed {id | id ∈ ids} :=
  eq_listed (ascending_pairwise ids) fun _ => mem_ascending

end BlastRadius.NodeId
