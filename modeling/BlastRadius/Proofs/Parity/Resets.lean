import BlastRadius.Proofs.Parity.Alike
import BlastRadius.Query.Reset

/-!
Taking things back. The kinds that are removed and the counts of removed nodes do not depend on
identifiers, and whatever is left is as tidy as before: no endpoint stays without its component.
-/

namespace BlastRadius

variable {c : Contents} {f : Renaming}

namespace Contents

/-- The contents without the nodes of some kinds, removed one kind after the other. -/
def withoutAll (c : Contents) (kinds : List NodeKind) : Contents := kinds.foldl without c

theorem rename_withoutAll (kinds : List NodeKind) :
    (c.withoutAll kinds).rename f = (c.rename f).withoutAll kinds := by
  induction kinds generalizing c with
  | nil => rfl
  | cons kind rest ih =>
      change ((c.without kind).withoutAll rest).rename f =
          ((c.rename f).without kind).withoutAll rest
      rw [ih, rename_without]

theorem withoutAll_node? {kinds : List NodeKind} {id : NodeId} {node : Node} :
    (c.withoutAll kinds).node? id = some node ↔ c.node? id = some node ∧
      node.kind ∉ kinds := by
  induction kinds generalizing c with
  | nil => simp [withoutAll]
  | cons kind rest ih =>
      change ((c.without kind).withoutAll rest).node? id = some node ↔ _
      rw [ih, without_node?_eq_some, List.mem_cons, not_or, and_assoc]

theorem mem_without_ofKind {id : NodeId} {kind other : NodeKind} :
    id ∈ (c.without kind).ofKind other ↔ id ∈ c.ofKind other ∧ other ≠ kind := by
  constructor
  · rintro ⟨node, found, rfl⟩
    obtain ⟨found, stays⟩ := without_node?_eq_some.mp found
    exact ⟨⟨node, found, rfl⟩, stays⟩
  · rintro ⟨⟨node, found, rfl⟩, stays⟩
    exact ⟨node, without_node? found stays, rfl⟩

theorem mem_withoutAll_ofKind {kinds : List NodeKind} {id : NodeId} {kind : NodeKind} :
    id ∈ (c.withoutAll kinds).ofKind kind ↔ id ∈ c.ofKind kind ∧ kind ∉ kinds := by
  constructor
  · rintro ⟨node, found, rfl⟩
    obtain ⟨found, stays⟩ := withoutAll_node?.mp found
    exact ⟨⟨node, found, rfl⟩, stays⟩
  · rintro ⟨⟨node, found, rfl⟩, stays⟩
    exact ⟨node, withoutAll_node?.mpr ⟨found, stays⟩, rfl⟩

theorem mem_withoutAll_edges {kinds : List NodeKind} {e : Edge} :
    e ∈ (c.withoutAll kinds).edges ↔
      e ∈ c.edges ∧ ∀ kind ∈ kinds, e.source ∉ c.ofKind kind ∧
        e.target ∉ c.ofKind kind := by
  induction kinds generalizing c with
  | nil => simp [withoutAll]
  | cons kind rest ih =>
      change e ∈ ((c.without kind).withoutAll rest).edges ↔ _
      rw [ih, List.forall_mem_cons]
      constructor
      · rintro ⟨⟨mem, first⟩, others⟩
        refine ⟨mem, first, fun other among => ?_⟩
        by_cases same : other = kind
        · exact same ▸ first
        · obtain ⟨source, target⟩ := others other among
          exact ⟨fun own => source (mem_without_ofKind.mpr ⟨own, same⟩),
            fun own => target (mem_without_ofKind.mpr ⟨own, same⟩)⟩
      · rintro ⟨mem, first, others⟩
        refine ⟨⟨mem, first⟩, fun other among => ?_⟩
        obtain ⟨source, target⟩ := others other among
        exact ⟨fun own => source (mem_without_ofKind.mp own).1,
          fun own => target (mem_without_ofKind.mp own).1⟩

theorem withoutAll_edges (kinds : List NodeKind) : (c.withoutAll kinds).edges ⊆ c.edges :=
  fun _ mem => (mem_withoutAll_edges.mp mem).1

theorem Valid.withoutAll (valid : c.Valid) (kinds : List NodeKind) :
    (c.withoutAll kinds).Valid := by
  induction kinds generalizing c with
  | nil => exact valid
  | cons kind rest ih => exact ih (valid.without kind)

theorem Tidy.withoutAll (tidy : c.Tidy) {kinds : List NodeKind}
    (together : .component ∈ kinds → .endpoint ∈ kinds) : (c.withoutAll kinds).Tidy where
  valid := tidy.valid.withoutAll kinds
  owners id name owner found := by
    obtain ⟨found, stays⟩ := withoutAll_node?.mp found
    obtain ⟨node, known, kind⟩ := tidy.owners id name owner found
    refine ⟨node, withoutAll_node?.mpr ⟨known, fun mem => ?_⟩, kind⟩
    exact stays (together (kind ▸ mem))
  records id := (tidy.records id).anti fun _ edge => withoutAll_edges kinds edge
  threats id := (tidy.threats id).anti fun _ edge => withoutAll_edges kinds edge
  identities identity := (tidy.identities identity).anti fun _ found =>
    (withoutAll_node?.mp found).1

theorem Valid.withoutAll_all (valid : c.Valid) : c.withoutAll NodeKind.all = empty := by
  have gone (id : NodeId) : (c.withoutAll NodeKind.all).node? id = none :=
    Option.eq_none_iff_forall_ne_some.mpr fun node found =>
      (withoutAll_node?.mp found).2 (NodeKind.mem_all node.kind)
  have valid' := valid.withoutAll NodeKind.all
  refine Contents.ext (funext gone) ?_ ?_
  · refine Set.eq_empty_iff_forall_notMem.mpr fun e mem => ?_
    obtain ⟨node, found⟩ := valid'.source_live mem
    exact Option.some_ne_none _ (found.symm.trans (gone _))
  · refine Set.eq_empty_iff_forall_notMem.mpr fun id mem => ?_
    obtain ⟨node, found⟩ := valid'.marked_live mem
    exact Option.some_ne_none _ (found.symm.trans (gone _))

/-- How many nodes of each kind are removed. -/
noncomputable def removals : List NodeKind → Contents → List (NodeKind × Nat)
  | [], _ => []
  | kind :: rest, c => (kind, (c.ofKind kind).ncard) :: removals rest (c.without kind)

theorem removals_rename (kinds : List NodeKind) :
    removals kinds (c.rename f) = removals kinds c := by
  induction kinds generalizing c with
  | nil => rfl
  | cons kind rest ih =>
      rw [removals, removals, rename_ofKind, NodeId.ncard_image, ← rename_without, ih]

end Contents

theorem leads_removals (kinds : List NodeKind) :
    Leads (StoreProgram.each (fun kind => do
      let count ← StoreProgram.call (.removeKind kind)
      return (kind, count)) kinds).run c (.ok (Contents.removals kinds c))
        (c.withoutAll kinds) := by
  induction kinds generalizing c with
  | nil => exact .pure []
  | cons kind rest ih =>
      refine Leads.bind ((Leads.call (q := .removeKind kind) rfl).bind (.pure _)) ?_
      exact (ih (c := c.without kind)).bind (.pure _)

theorem Query.endpoint_mem_withEndpoints {kinds : List NodeKind}
    (mem : .component ∈ withEndpoints kinds) : .endpoint ∈ withEndpoints kinds := by
  rw [withEndpoints] at mem ⊢
  split at mem
  · rename_i removed
    rw [if_pos removed]
    exact List.mem_append_right kinds (List.mem_singleton.mpr rfl)
  · rename_i kept
    rw [if_neg kept]
    simpa [mem] using kept

theorem leads_resetKinds (kinds : List NodeKind) :
    Leads (Query.resetKinds kinds).run c
      (.ok ⟨Contents.removals (Query.withEndpoints kinds) c⟩)
      (c.withoutAll (Query.withEndpoints kinds)) :=
  (Leads.ofStore (leads_removals _).atomically).bind (.pure _)

end BlastRadius
