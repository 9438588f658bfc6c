import BlastRadius.Proofs.Impact.Histories
import BlastRadius.Proofs.Parity.Bindings

/-!
Bindings about the same nodes. Recording a binding never makes a second one about the nodes of
another, and what a binding is about changes only when nodes are removed: when the nodes in which
two bindings differ go and the bindings stay, they are about the same nodes from then on.
-/

namespace BlastRadius

namespace Contents

variable {c c' c'' : Contents} {q : Call}

/-- The nodes that a binding is about. -/
def subjects (c : Contents) (b : NodeId) : Set NodeId := c.targets b .specializesInto

/-- Bindings stay and are about the same nodes, and a new one is not about the nodes of another. -/
structure BindingsKept (c c' : Contents) : Prop where
  valid : c'.Valid
  stay : ∀ b ∈ c.ofKind .binding, b ∈ c'.ofKind .binding
  subjects : ∀ b ∈ c.ofKind .binding, c'.subjects b = c.subjects b
  distinct : ∀ b ∈ c'.ofKind .binding, b ∉ c.ofKind .binding →
    ∀ other ∈ c'.ofKind .binding, c'.subjects other = c'.subjects b → other = b

/-- The same, of valid contents. -/
def BindingsStay (c c' : Contents) : Prop := c.Valid → c.BindingsKept c'

namespace BindingsKept

theorem of_same (valid : c'.Valid) (bindings : c'.ofKind .binding = c.ofKind .binding)
    (subjects : ∀ b, c'.subjects b = c.subjects b) : c.BindingsKept c' where
  valid := valid
  stay _ own := bindings ▸ own
  subjects b _ := subjects b
  distinct _ own new := absurd (bindings ▸ own) new

theorem refl (valid : c.Valid) : c.BindingsKept c := of_same valid rfl fun _ => rfl

theorem trans (first : c.BindingsKept c') (second : c'.BindingsKept c'') : c.BindingsKept c'' where
  valid := second.valid
  stay b own := second.stay b (first.stay b own)
  subjects b own := (second.subjects b (first.stay b own)).trans (first.subjects b own)
  distinct := by
    intro b own new other own' same
    by_cases old : b ∈ c'.ofKind .binding
    · by_cases old' : other ∈ c'.ofKind .binding
      · rw [second.subjects b old, second.subjects other old'] at same
        exact first.distinct b old new other old' same
      · exact (second.distinct other own' old' b own same.symm).symm
    · exact second.distinct b own old other own' same

end BindingsKept

theorem Change.bindingsKept (change : c.Change q c') (valid : c.Valid)
    (frame : q.touches .binding .specializesInto = false) : c.BindingsKept c' :=
  .of_same (change.valid valid) (change.ofKind_eq frame) (change.targets_eq frame)

end Contents

theorem Contents.bindingsKept_inserted {c : Contents} (valid : c.Valid) {id : NodeId}
    (fresh : c.node? id = none) {ids : Set NodeId}
    (allowed : ids ⊆ c.allowed .binding .specializesInto)
    (none : c.bindingsOf ids = ∅) :
    c.BindingsKept ((c.insert id .binding).linkAll id .specializesInto ids) := by
  have own : id ∈ (c.insert id .binding).ofKind .binding := ⟨_, insert_node?_self id _, rfl⟩
  have valid' : (c.insert id .binding).Valid := valid.insert fresh fun key own => by cases own
  have subjects (b : NodeId) :
      ((c.insert id .binding).linkAll id .specializesInto ids).subjects b =
        if b = id then ids else c.subjects b :=
    valid.targets_linked fresh .binding .specializesInto ids b
  have old {b : NodeId} (other : b ≠ id) := (subjects b).trans (if_neg other)
  have new := (subjects id).trans (if_pos rfl)
  have bindings {b : NodeId} (mem : b ∈ (c.insert id .binding).ofKind .binding) :
      b ∈ c.ofKind .binding ∨ b = id := by
    rcases (mem_ofKind_insert fresh).mp mem with mem | ⟨same, _⟩
    · exact Or.inl mem
    · exact Or.inr same
  refine ⟨valid'.linkAll own (allowed_insert fresh allowed),
    fun b mem => (mem_ofKind_insert fresh).mpr (Or.inl mem), ?_, ?_⟩
  · intro b mem
    refine old ?_
    rintro rfl
    exact not_mem_live.mpr fresh (ofKind_subset_live _ mem)
  · intro b mem unknown other mem' same
    obtain rfl := (bindings mem).resolve_left unknown
    by_contra distinct
    rw [new, old distinct] at same
    have about : other ∈ c.bindingsOf ids := ⟨(bindings mem').resolve_right distinct, same⟩
    exact Set.notMem_empty other (none ▸ about)

open Contents

theorem leads_recording_found {c : Contents} (valid : c.Valid) {request : BindingRequest}
    {b : NodeId}
    (least : IsLeast (c.bindingsOf (c.requested request)) b) :
    Leads (Inventory.recording request).run c
      (.ok ⟨b, false, NodeId.listed (c.requested request), request⟩) c := by
  have search := reads_exactBinding valid (requested_subset_live (c := c) request)
  rw [NodeId.head?_listed.mpr least] at search
  exact (reads_resolveTargets valid request).bind (search.bind (.pure _))

theorem recording_cases {c c' : Contents} {request : BindingRequest} {x : Except StoreError Binding}
    (valid : c.Valid) (ran : (Inventory.recording request).run.Runs Tried c x c') :
    (∃ b, IsLeast (c.bindingsOf (c.requested request)) b ∧
      x = .ok ⟨b, false, NodeId.listed (c.requested request), request⟩ ∧ c' = c) ∨
    c.bindingsOf (c.requested request) = ∅ ∧
      ((∃ b, c.node? b = none ∧
        x = .ok ⟨b, true, NodeId.listed (c.requested request), request⟩ ∧
        c' = (c.insert b .binding).linkAll b .specializesInto (c.requested request)) ∨
      ∃ row, x = .error (.idOverflow row) ∧ c.Exhausted ∧ c' = c) := by
  by_cases none : c.bindingsOf (c.requested request) = ∅
  · refine Or.inr ⟨none, ?_⟩
    obtain ⟨targets, m, resolved, ran⟩ := runs_exceptT_bind.mp ran
    obtain ⟨rfl, rfl⟩ := (reads_resolveTargets valid request).unique_of_tried resolved
    obtain ⟨found, m, searched, ran⟩ := runs_exceptT_bind.mp ran
    obtain ⟨rfl, rfl⟩ :=
      (reads_exactBinding valid (requested_subset_live request)).unique_of_tried searched
    rw [none, NodeId.listed_eq_nil.mpr rfl] at ran
    obtain ⟨binding, m₂, inserting, ran⟩ := runs_exceptT_bind.mp ran
    obtain ⟨new, m₁, insertion, linking⟩ := runs_exceptT_bind.mp inserting
    rcases (runs_storeCall.mp insertion).insert_cases with
      ⟨id, fresh, _, rfl, rfl⟩ | ⟨_, keyed, _⟩ | ⟨row, rfl, full, rfl⟩
    · have targets : {t | t ∈ NodeId.listed (m.requested request)} = m.requested request := by
        simp
      have allowed : {t | t ∈ NodeId.listed (m.requested request)} ⊆
          (m.insert id .binding).allowed .binding .specializesInto := by
        rw [targets]
        exact allowed_insert fresh (requested_allowed request)
      obtain ⟨added, linked⟩ := leads_linkAll (l := NodeId.listed (m.requested request))
        ⟨_, insert_node?_self id .binding, rfl⟩ allowed
      rw [targets] at linked
      obtain ⟨edges, m₃, linking, rest⟩ := runs_exceptT_bind.mp linking
      obtain ⟨rfl, rfl⟩ := linked.unique_of_tried linking
      obtain ⟨rfl, rfl⟩ := rest
      obtain ⟨rfl, rfl⟩ := ran
      exact Or.inl ⟨id, fresh, rfl, rfl⟩
    · cases keyed
    · obtain ⟨rfl, rfl⟩ := linking
      obtain ⟨rfl, rfl⟩ := ran
      exact Or.inr ⟨row, rfl, full, rfl⟩
  · obtain ⟨b, least⟩ := NodeId.exists_isLeast none
    exact Or.inl ⟨b, least, (leads_recording_found valid least).unique_of_tried ran⟩

theorem recording_bindingsKept (request : BindingRequest) :
    KeepsBlock BindingsStay (Inventory.recording request) := by
  intro c x c' ran valid
  rcases recording_cases valid ran with
    ⟨b, _, rfl, rfl⟩ | ⟨none, ⟨b, fresh, rfl, rfl⟩ | ⟨row, rfl, _, rfl⟩⟩
  · exact .refl valid
  · exact bindingsKept_inserted valid fresh (requested_allowed request) none
  · exact .refl valid

theorem kept_bindings : Kept BindingsStay := by
  have refl (c : Contents) : c.BindingsStay c := .refl
  have trans {a b c : Contents} (first : a.BindingsStay b) (second : b.BindingsStay c) :
      a.BindingsStay c := fun valid => (first valid).trans (second (first valid).valid)
  have call {q : Call} (frame : q.touches .binding .specializesInto = false) :
      Keeps BindingsStay (StoreProgram.call q) :=
    keeps_call fun change valid => change.bindingsKept valid frame
  refine ⟨refl, trans, fun plain change valid => ?_, fun owner _ => ?_, recording_bindingsKept,
    fun identity symbol => ?_⟩
  · exact change.bindingsKept valid (Call.untouched_of_plain plain).2.1
  · exact keeps_exposing refl trans (call rfl) fun _ => call rfl
  · exact keeps_registering refl trans (fun _ => call rfl) (call rfl) fun _ _ => call rfl

namespace Contents

variable {c : Contents} {operation : Operation} {b b' : NodeId}

/-- Two bindings are about the same nodes. -/
structure Coincide (c : Contents) (b b' : NodeId) : Prop where
  ne : b ≠ b'
  left : b ∈ c.ofKind .binding
  right : b' ∈ c.ofKind .binding
  same : c.subjects b = c.subjects b'

/-- Different bindings are about different sets of nodes. -/
def DistinctBindings (c : Contents) : Prop :=
  ∀ b ∈ c.ofKind .binding, ∀ b' ∈ c.ofKind .binding, b ≠ b' →
    c.subjects b ≠ c.subjects b'

/-- Two bindings stay while an operation removes every node in which they differ. -/
structure Merges (c : Contents) (operation : Operation) (b b' : NodeId) : Prop where
  left : b ∈ c.ofKind .binding
  right : b' ∈ c.ofKind .binding
  stay : .binding ∉ operation.removed
  differ : c.subjects b ≠ c.subjects b'
  difference : ∀ t, ¬ (t ∈ c.subjects b ↔ t ∈ c.subjects b') →
    ∃ kind ∈ operation.removed, t ∈ c.ofKind kind

theorem Merges.removes (merges : c.Merges operation b b') : operation.removed ≠ [] := by
  intro none
  refine merges.differ (Set.ext fun t => ?_)
  by_contra apart
  obtain ⟨kind, removed, _⟩ := merges.difference t apart
  rw [none] at removed
  cases removed

theorem Merges.anchor (merges : c.Merges operation b b') (valid : c.Valid) :
    ∃ kind ∈ operation.removed, Relation.specializesInto.permits .binding kind = true := by
  have permitted {b t : NodeId} (own : b ∈ c.ofKind .binding) (mem : t ∈ c.subjects b)
      {kind : NodeKind} (own' : t ∈ c.ofKind kind) :
      Relation.specializesInto.permits .binding kind = true := by
    obtain ⟨source, target, hs, ht, permitted⟩ := valid.permitted _ mem
    rwa [(mem_ofKind hs).mp own, (mem_ofKind ht).mp own'] at permitted
  obtain ⟨t, apart⟩ : ∃ t, ¬ (t ∈ c.subjects b ↔ t ∈ c.subjects b') := by
    by_contra none
    exact merges.differ (Set.ext fun t => not_not.mp fun apart => none ⟨t, apart⟩)
  obtain ⟨kind, removed, own⟩ := merges.difference t apart
  by_cases mem : t ∈ c.subjects b
  · exact ⟨kind, removed, permitted merges.left mem own⟩
  · have mem' : t ∈ c.subjects b' := by
      by_contra other
      exact apart ⟨fun h => absurd h mem, fun h => absurd h other⟩
    exact ⟨kind, removed, permitted merges.right mem' own⟩

theorem mem_subjects_withoutAll {kinds : List NodeKind}
    (stays : b ∈ (c.withoutAll kinds).ofKind .binding)
    {t : NodeId} : t ∈ (c.withoutAll kinds).subjects b ↔
      t ∈ c.subjects b ∧ ∀ kind ∈ kinds, t ∉ c.ofKind kind := by
  obtain ⟨own, kept⟩ := mem_withoutAll_ofKind.mp stays
  refine mem_withoutAll_edges.trans (and_congr_right fun _ =>
    forall₂_congr fun kind removed => ?_)
  refine and_iff_right fun other => kept ?_
  exact ofKind_eq other own ▸ removed

theorem coincide_withoutAll : (c.withoutAll operation.removed).Coincide b b' ↔
    c.Coincide b b' ∧ .binding ∉ operation.removed ∨ c.Merges operation b b' := by
  constructor
  · rintro ⟨ne, left, right, same⟩
    obtain ⟨own, stay⟩ := mem_withoutAll_ofKind.mp left
    obtain ⟨own', _⟩ := mem_withoutAll_ofKind.mp right
    by_cases before : c.subjects b = c.subjects b'
    · exact Or.inl ⟨⟨ne, own, own', before⟩, stay⟩
    · refine Or.inr ⟨own, own', stay, before, fun t apart => ?_⟩
      by_contra kept
      have kept' (kind : NodeKind) (removed : kind ∈ operation.removed) : t ∉ c.ofKind kind :=
        fun own => kept ⟨kind, removed, own⟩
      have after := Set.ext_iff.mp same t
      rw [mem_subjects_withoutAll left, mem_subjects_withoutAll right, and_iff_left kept',
        and_iff_left kept'] at after
      exact apart after
  · have shown (left : b ∈ c.ofKind .binding) (right : b' ∈ c.ofKind .binding) (ne : b ≠ b')
        (stay : .binding ∉ operation.removed)
        (same : ∀ t, (∀ kind ∈ operation.removed, t ∉ c.ofKind kind) →
          (t ∈ c.subjects b ↔ t ∈ c.subjects b')) :
        (c.withoutAll operation.removed).Coincide b b' := by
      have left' := mem_withoutAll_ofKind.mpr ⟨left, stay⟩
      have right' := mem_withoutAll_ofKind.mpr ⟨right, stay⟩
      refine ⟨ne, left', right', Set.ext fun t => ?_⟩
      rw [mem_subjects_withoutAll left', mem_subjects_withoutAll right']
      exact and_congr_left fun kept => same t kept
    rintro (⟨⟨ne, left, right, same⟩, stay⟩ | ⟨left, right, stay, differ, difference⟩)
    · exact shown left right ne stay fun t _ => Set.ext_iff.mp same t
    · refine shown left right (fun same => differ (congrArg c.subjects same)) stay fun t kept => ?_
      by_contra apart
      obtain ⟨kind, removed, own⟩ := difference t apart
      exact kept kind removed own

end Contents

namespace Medium

variable {medium : Medium} {operations : List Operation} {b b' : NodeId}

theorem coincide_step {operation : Operation} (fits : medium.Fits (operations ++ [operation])) :
    (medium.contents (operations ++ [operation])).Coincide b b' ↔
      (medium.contents operations).Coincide b b' ∧ .binding ∉ operation.removed ∨
        (medium.contents operations).Merges operation b b' := by
  by_cases removes : operation.removed = []
  · have kept := contents_kept kept_bindings fits removes
      (contents_valid (fits.before (List.prefix_append _ _)))
    rw [or_iff_left fun merges => merges.removes removes,
      and_iff_left (removes ▸ List.not_mem_nil)]
    constructor
    · rintro ⟨ne, left, right, same⟩
      have old : b ∈ (medium.contents operations).ofKind .binding := by
        by_contra new
        exact ne (kept.distinct b left new b' right same.symm).symm
      have old' : b' ∈ (medium.contents operations).ofKind .binding := by
        by_contra new
        exact ne (kept.distinct b' right new b left same)
      rw [kept.subjects b old, kept.subjects b' old'] at same
      exact ⟨ne, old, old', same⟩
    · rintro ⟨ne, left, right, same⟩
      refine ⟨ne, kept.stay b left, kept.stay b' right, ?_⟩
      rw [kept.subjects b left, kept.subjects b' right, same]
  · rw [contents_removed fits removes, coincide_withoutAll]

theorem coincide_iff (fits : medium.Fits operations) :
    (medium.contents operations).Coincide b b' ↔
      ∃ before operation after, operations = before ++ operation :: after ∧
        (medium.contents before).Merges operation b b' ∧
          ∀ later ∈ after, .binding ∉ later.removed := by
  refine since_iff (P := fun l => (medium.contents l).Coincide b b')
    (S := fun l operation => (medium.contents l).Merges operation b b')
    (Q := fun operation => .binding ∉ operation.removed) ?_ fun before operation among => ?_
  · rintro ⟨_, ⟨_, found, _⟩, _⟩
    rw [contents_nil] at found
    cases found
  · exact coincide_step (fits.before among)

/-- After operations, different bindings are about different sets of nodes, unless a removal took
away every node in which two bindings differed and these have stayed since. So they are when no
operation removes nodes that a binding may be about and keeps the bindings. -/
theorem bindings_distinct_iff (medium : Medium) {operations : List Operation}
    (fits : medium.Fits operations) :
    ((medium.contents operations).DistinctBindings ↔
      ∀ before operation after, operations = before ++ operation :: after →
        (∀ later ∈ after, .binding ∉ later.removed) →
          ∀ b b', ¬ (medium.contents before).Merges operation b b') ∧
    ((∀ operation ∈ operations, .binding ∈ operation.removed ∨
      ∀ kind ∈ operation.removed, Relation.specializesInto.permits .binding kind = false) →
        (medium.contents operations).DistinctBindings) := by
  have distinct (never : ∀ before operation after, operations = before ++ operation :: after →
      (∀ later ∈ after, .binding ∉ later.removed) →
        ∀ b b', ¬ (medium.contents before).Merges operation b b') :
      (medium.contents operations).DistinctBindings := by
    intro b left b' right ne same
    obtain ⟨before, operation, after, whole, merges, stay⟩ :=
      (coincide_iff fits).mp ⟨ne, left, right, same⟩
    exact never before operation after whole stay b b' merges
  refine ⟨⟨fun apart => ?_, distinct⟩, fun spared => distinct ?_⟩
  · intro before operation after same stay b b' merges
    have coincide := (coincide_iff fits).mpr ⟨before, operation, after, same, merges, stay⟩
    exact apart b coincide.left b' coincide.right coincide.ne coincide.same
  · intro before operation after same _ b b' merges
    have valid := contents_valid (fits.before ⟨operation :: after, same.symm⟩)
    -- Two bindings can only fall together when a node of a kind that bindings are about is removed.
    obtain ⟨kind, removed, permitted⟩ := merges.anchor valid
    rcases spared operation (by simp [same]) with gone | spared
    · exact merges.stay gone
    · exact Bool.false_ne_true ((spared kind removed).symm.trans permitted)

theorem bindings_distinct_iff_after_removal :
    let operations : List Operation :=
      [.createBinding {}, .upsertLibrary ⟨"parser", "1.0"⟩ ["parse"],
      .createBinding { library := some ⟨"parser", "1.0"⟩ }, .resetKinds [.symbol]]
    Medium.database.Fits operations ∧
    (∀ operation ∈ operations, .binding ∈ operation.removed ∨
      ∀ kind ∈ operation.removed, Relation.specializesInto.permits .binding kind = false) ∧
    (Medium.database.contents operations).node? ⟨1⟩ = some .binding ∧
    (Medium.database.contents operations).node? ⟨4⟩ = some .binding ∧
    (Medium.database.contents operations).DistinctBindings := by
  intro operations
  have fits : Medium.database.Fits operations := fun _ _ _ => trivial
  have spared : ∀ operation ∈ operations, .binding ∈ operation.removed ∨
      ∀ kind ∈ operation.removed, Relation.specializesInto.permits .binding kind = false := by
    decide
  exact ⟨fits, spared, by decide +kernel, by decide +kernel,
    (bindings_distinct_iff .database fits).2 spared⟩

/-- The library was all in which the second binding differed from the first. -/
theorem bindings_coincide_after_reset :
    let operations : List Operation := [.createBinding {}, .upsertLibrary ⟨"parser", "1.0"⟩ [],
      .createBinding { library := some ⟨"parser", "1.0"⟩ }, .resetDomain .callGraph]
    ¬ (Medium.database.contents operations).DistinctBindings := by
  intro operations distinct
  have first : (Medium.database.contents operations).node? ⟨1⟩ = some .binding := by
      decide +kernel
  have second : (Medium.database.contents operations).node? ⟨3⟩ = some .binding := by
      decide +kernel
  have edges : Tables.links (Database.tables (Medium.database.reached operations)) = [] := by
    decide +kernel
  have none (b : NodeId) : (Medium.database.contents operations).subjects b = ∅ :=
    (Database.targets_of_links edges b .specializesInto).trans (by simp)
  exact distinct ⟨1⟩ ⟨_, first, rfl⟩ ⟨3⟩ ⟨_, second, rfl⟩ (by decide)
    ((none ⟨1⟩).trans (none ⟨3⟩).symm)

end Medium

end BlastRadius
