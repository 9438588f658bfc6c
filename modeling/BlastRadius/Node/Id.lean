/-!
Node identifiers: 32-bit words, written in decimal and ordered as numbers.
-/

namespace BlastRadius

/-- The identifier of a node. -/
structure NodeId where
  value : UInt32
  deriving DecidableEq, Repr, Inhabited

namespace NodeId

def count : Nat := UInt32.size

def toNat (id : NodeId) : Nat := id.value.toNat

/-- The identifier of a number, counted modulo `count`. -/
def ofNat (n : Nat) : NodeId := ⟨UInt32.ofNat n⟩

/-- The identifier of a number that is in range. -/
def ofInt? (n : Int) : Option NodeId :=
  if 0 ≤ n ∧ n < count then some (ofNat n.toNat) else none

instance : LT NodeId := ⟨fun a b => a.toNat < b.toNat⟩

instance : LE NodeId := ⟨fun a b => a.toNat ≤ b.toNat⟩

instance (a b : NodeId) : Decidable (a < b) := Nat.decLt a.toNat b.toNat

instance (a b : NodeId) : Decidable (a ≤ b) := Nat.decLe a.toNat b.toNat

instance : ToString NodeId := ⟨fun id => toString id.toNat⟩

theorem toNat_lt (id : NodeId) : id.toNat < count := id.value.toNat_lt

@[simp] theorem ofNat_toNat (id : NodeId) : ofNat id.toNat = id := by
  simp [ofNat, toNat]

theorem toNat_ofNat {n : Nat} (h : n < count) : (ofNat n).toNat = n := by
  simpa [ofNat, toNat, count] using Nat.mod_eq_of_lt h

theorem toNat_inj {a b : NodeId} : a.toNat = b.toNat ↔ a = b := by
  constructor
  · intro h
    rw [← ofNat_toNat a, ← ofNat_toNat b, h]
  · rintro rfl
    rfl

/-- Inserts an identifier into an ascending list that may already have it. -/
def insertAscending (id : NodeId) : List NodeId → List NodeId
  | [] => [id]
  | other :: rest =>
      if other < id then other :: insertAscending id rest
      else if other = id then other :: rest
      else id :: other :: rest

/-- The identifiers of a list, ascending and each once. -/
def ascending (ids : List NodeId) : List NodeId :=
  ids.foldr insertAscending []

theorem mem_insertAscending {a id : NodeId} {ids : List NodeId} :
    a ∈ insertAscending id ids ↔ a = id ∨ a ∈ ids := by
  induction ids with
  | nil => simp [insertAscending]
  | cons other rest ih =>
      simp only [insertAscending]
      split
      · simp only [List.mem_cons, ih]
        exact or_left_comm
      · split
        · rename_i h
          simp [h]
        · simp

@[simp] theorem mem_ascending {a : NodeId} {ids : List NodeId} :
    a ∈ ascending ids ↔ a ∈ ids := by
  induction ids with
  | nil => simp [ascending]
  | cons other rest ih =>
      rw [ascending, List.foldr_cons, mem_insertAscending, List.mem_cons]
      exact or_congr Iff.rfl ih

end NodeId

end BlastRadius
