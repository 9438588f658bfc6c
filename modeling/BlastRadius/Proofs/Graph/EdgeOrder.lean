import BlastRadius.Graph.Basic
import BlastRadius.Proofs.Node.Order
import Mathlib.Data.List.Sort
import Mathlib.Data.Prod.Lex

/-!
Lists of edges ordered by source, then by a label of the relation, then by target. The two stores
order relations by different labels; in either order the edges of a node are listed by ascending
identifier.
-/

namespace BlastRadius.Edge

variable {β : Type} [LinearOrder β] (label : Relation → β)

/-- The place of an edge in the order. -/
def place (e : Edge) : NodeId ×ₗ β ×ₗ NodeId :=
  toLex (e.source, toLex (label e.relation, e.target))

/-- A list of edges in order, without repetition. -/
def Ordered (edges : List Edge) : Prop := edges.Pairwise fun a b => a.place label < b.place label

variable {label} {edges : List Edge}

theorem place_lt {a b : Edge} : a.place label < b.place label ↔
    a.source < b.source ∨ a.source = b.source ∧
      (label a.relation < label b.relation ∨
        label a.relation = label b.relation ∧ a.target < b.target) := by
  simp [place, Prod.Lex.toLex_lt_toLex]

omit [LinearOrder β] in
theorem place_injective (inj : Function.Injective label) : Function.Injective (place label) := by
  rintro ⟨s, r, t⟩ ⟨s', r', t'⟩ h
  simp only [place, EmbeddingLike.apply_eq_iff_eq, Prod.mk.injEq] at h
  obtain ⟨rfl, hr, rfl⟩ := h
  rw [inj hr]

theorem Ordered.nodup (ordered : Ordered label edges) : edges.Nodup := by
  rw [List.nodup_iff_pairwise_ne]
  exact ordered.imp fun lt => ne_of_apply_ne (place label) lt.ne

theorem Ordered.orderedInsert (inj : Function.Injective label) (ordered : Ordered label edges)
    {e : Edge} (fresh : e ∉ edges) :
    Ordered label (edges.orderedInsert (fun a b => a.place label ≤ b.place label) e) := by
  have sorted : (edges.orderedInsert (fun a b => a.place label ≤ b.place label) e).Pairwise
      fun a b => a.place label ≤ b.place label := by
    have : Std.Total fun a b : Edge => a.place label ≤ b.place label :=
      ⟨fun _ _ => le_total _ _⟩
    have : IsTrans Edge fun a b => a.place label ≤ b.place label := ⟨fun _ _ _ => le_trans⟩
    exact List.Pairwise.orderedInsert e edges (ordered.imp le_of_lt)
  have nodup : (edges.orderedInsert (fun a b => a.place label ≤ b.place label) e).Nodup := by
    rw [(List.perm_orderedInsert _ e edges).nodup_iff, List.nodup_cons]
    exact ⟨fresh, ordered.nodup⟩
  exact (sorted.and nodup).imp fun ⟨le, ne⟩ => lt_of_le_of_ne le fun eq =>
    ne (place_injective inj eq)

theorem Ordered.targets (ordered : Ordered label edges) (id : NodeId) (relation : Relation) :
    (edges.filter fun e => e.source == id && e.relation == relation).map Edge.target =
      NodeId.listed {t | ⟨id, relation, t⟩ ∈ edges} := by
  refine NodeId.eq_listed ?_ fun t => ?_
  · rw [List.pairwise_map]
    refine (List.Pairwise.filter _ ordered).imp_of_mem fun {a b} ha hb lt => ?_
    simp only [List.mem_filter, Bool.and_eq_true, beq_iff_eq] at ha hb
    rw [place_lt, ha.2.1, hb.2.1, ha.2.2, hb.2.2] at lt
    simpa using lt
  · simp only [List.mem_map, List.mem_filter, Bool.and_eq_true, beq_iff_eq]
    constructor
    · rintro ⟨⟨s, r, _⟩, ⟨mem, rfl, rfl⟩, rfl⟩
      exact mem
    · intro mem
      exact ⟨⟨id, relation, t⟩, ⟨mem, rfl, rfl⟩, rfl⟩

theorem Ordered.sources (ordered : Ordered label edges) (id : NodeId) (relation : Relation) :
    (edges.filter fun e => e.target == id && e.relation == relation).map Edge.source =
      NodeId.listed {s | ⟨s, relation, id⟩ ∈ edges} := by
  refine NodeId.eq_listed ?_ fun s => ?_
  · rw [List.pairwise_map]
    refine (List.Pairwise.filter _ ordered).imp_of_mem fun {a b} ha hb lt => ?_
    simp only [List.mem_filter, Bool.and_eq_true, beq_iff_eq] at ha hb
    rw [place_lt, ha.2.1, hb.2.1, ha.2.2, hb.2.2] at lt
    simpa using lt
  · simp only [List.mem_map, List.mem_filter, Bool.and_eq_true, beq_iff_eq]
    constructor
    · rintro ⟨⟨_, r, t⟩, ⟨mem, rfl, rfl⟩, rfl⟩
      exact mem
    · intro mem
      exact ⟨⟨s, relation, id⟩, ⟨mem, rfl, rfl⟩, rfl⟩

end BlastRadius.Edge
