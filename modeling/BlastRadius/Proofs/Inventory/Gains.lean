import BlastRadius.Proofs.Inventory.Outgrowth

/-!
What contents gain when something is recorded: the facts that they show besides, and what further
bindings are about.
-/

namespace BlastRadius

namespace Contents

variable {c c' m : Contents} {id x y r a owner : NodeId} {e e' : Entity} {net : CallNetwork}
  {facts facts' : Set Fact} {groups groups' : Set (Set Entity)} {ids : Set NodeId}

/-- Contents grew by facts and bindings. -/
structure Gains (c : Contents) (facts : Set Fact) (groups : Set (Set Entity)) (c' : Contents) :
    Prop where
  outgrowth : Outgrowth c c'
  shown : c'.shown = c.shown ∪ facts
  grouped : c'.grouped = c.grouped ∪ groups

namespace Gains

theorem refl (regular : c.Regular) : c.Gains ∅ ∅ c :=
  ⟨.refl regular, (Set.union_empty _).symm, (Set.union_empty _).symm⟩

theorem trans (first : c.Gains facts groups m) (second : m.Gains facts' groups' c') :
    c.Gains (facts ∪ facts') (groups ∪ groups') c' where
  outgrowth := first.outgrowth.trans second.outgrowth
  shown := by rw [second.shown, first.shown, Set.union_assoc]
  grouped := by rw [second.grouped, first.grouped, Set.union_assoc]

theorem regular (gains : c.Gains facts groups c') : c'.Regular := gains.outgrowth.after

theorem of_known (gains : c.Gains facts groups c') (known : facts' ⊆ c.shown ∪ facts)
    (more : facts ⊆ facts') : c.Gains facts' groups c' where
  outgrowth := gains.outgrowth
  shown := by
    rw [gains.shown]
    refine Set.Subset.antisymm (Set.union_subset_union_right _ more) ?_
    exact Set.union_subset Set.subset_union_left known
  grouped := gains.grouped

end Gains

theorem Outgrowth.gains (outgrowth : Outgrowth c c') (shown : c'.shown = c.shown ∪ facts)
    (none : c'.ofKind .binding ⊆ c.ofKind .binding) : c.Gains facts ∅ c' :=
  ⟨outgrowth, shown, (outgrowth.grouped_eq none).trans (Set.union_empty _).symm⟩

namespace Regular

variable (regular : c.Regular)
include regular

theorem gains_known (known : facts ⊆ c.shown) : c.Gains facts ∅ c :=
  (Gains.refl regular).of_known (known.trans Set.subset_union_left) (Set.empty_subset _)

theorem gains_entity {node : Node} (fresh : c.node? id = none)
    (free : ∀ key, node.key? = some key → c.keyed key = ∅)
    (new : (c.insert id node).Denotes id e)
    (other : e.kind ≠ .endpoint) : c.Gains {.present e} ∅ (c.insert id node) := by
  refine (regular.entity fresh free new other).gains (regular.shown_insert fresh new)
    fun b own => ?_
  refine ((mem_ofKind_insert fresh).mp own).resolve_right fun ⟨_, kind⟩ => ?_
  have kind' := (mem_ofKind (insert_node?_self id node)).mp new.ofKind
  exact e.kind_ne_binding (kind.symm.trans kind')

theorem gains_relation (relation : Relation) (source : c.Denotes x e) (target : c.Denotes y e')
    (permitted : relation.permits e.kind e'.kind = true) (plain : relation.plain = true)
    (other : relation ≠ .exposes) :
    c.Gains {.related e relation e'} ∅ (c.link ⟨x, relation, y⟩) := by
  refine (regular.relation source.ofKind target.ofKind permitted plain other).gains ?_ subset_rfl
  refine shown_link ⟨x, relation, y⟩ ⟨?_, ?_⟩ source target
  all_goals
    rintro rfl
    cases plain

theorem gains_endpoint {endpoint : EndpointRef} (fresh : c.node? id = none)
    (free : c.keyed (.endpoint endpoint.name owner) = ∅)
    (component : c.Denotes owner (.component endpoint.component))
    (named : endpoint.name.isEmpty = false) :
    c.Gains {.present (.endpoint endpoint),
        .related (.endpoint endpoint) .exposes (.component endpoint.component)} ∅
      ((c.insert id (.endpoint endpoint.name owner)).link ⟨id, .exposes, owner⟩) := by
  have held : (c.insert id (.endpoint endpoint.name owner)).Denotes owner
      (.component endpoint.component) := insert_node?_of_some fresh component
  have new : (c.insert id (.endpoint endpoint.name owner)).Denotes id (.endpoint endpoint) :=
    ⟨owner, held, insert_node?_self id _⟩
  refine (regular.endpoint fresh free component named).gains ?_ fun b own => ?_
  · have linked := shown_link ⟨id, .exposes, owner⟩ ⟨nofun, nofun⟩ new held
    rw [linked, regular.shown_insert fresh new, Set.union_assoc]
    rfl
  · exact ((mem_ofKind_insert fresh).mp own).resolve_right nofun

theorem gains_callees (records : c.Records net r a) (caller : c.Denotes a e)
    (targets : ids ⊆ c.ofKind net.caller) :
    c.Gains (.calls net e '' c.entities ids) ∅ (c.linkAll r .callees ids) :=
  (regular.callees records targets).gains
    (shown_linkAll_callees regular.toRecorded records.1 records.2 caller ids) subset_rfl

theorem gains_first_callees (fresh : c.node? r = none) (none : c.sources a .caller = ∅)
    (own : a ∈ c.ofKind net.caller) (caller : c.Denotes a e)
    (targets : ids ⊆ c.ofKind net.caller)
    (nonempty : ids.Nonempty) :
    c.Gains (.calls net e '' c.entities ids) ∅ ((c.record net r a).linkAll r .callees ids) := by
  have outgrowth := regular.first_callees fresh none own targets nonempty
  have found := c.insert_node?_self r net.record
  have unknown (c' : Contents) (same : c'.node? r = some net.record) :=
    not_denotes (c := c') ⟨_, same, rfl⟩ fun e => e.kind_ne_record net
  have inserted : (c.insert r net.record).shown = c.shown :=
    regular.shown_insert_none fresh (unknown _ found)
  have bare (t : NodeId) : ⟨r, .callees, t⟩ ∉ (c.insert r net.record).edges := fun edge =>
    not_mem_live.mpr fresh (regular.valid.source_live edge)
  have recorded : (c.record net r a).shown = c.shown :=
    (shown_link_caller bare (unknown _ found)).trans inserted
  have same {t : NodeId} (mem : t ∈ ids) {e : Entity} :
      (c.record net r a).Denotes t e ↔ c.Denotes t e :=
    (denotes_congr rfl).trans ((insert_extendedBy fresh net.record).denotes_iff regular.toPlaced
      (ofKind_subset_live _ (targets mem)))
  have entities : (c.record net r a).entities ids = c.entities ids :=
    Set.ext fun e => exists_congr fun t => and_congr_right fun mem => same mem
  have recorded' : (c.record net r a).Recorded := by
    refine (outgrowth.after.toRecorded).of_fewer ?_ Or.inl
    obtain ⟨target, held, kind⟩ := own
    refine (regular.valid.insert fresh fun key own => ?_).link found
      (insert_node?_of_some fresh held) ?_
    · cases net <;> cases own
    · exact kind ▸ net.permits_caller
  refine outgrowth.gains ?_ fun b own => ?_
  · rw [← entities, ← recorded]
    exact shown_linkAll_callees recorded' ⟨_, found, rfl⟩ (Or.inl rfl)
      ((denotes_congr rfl).mpr (caller.mono (insert_node?_of_some fresh))) ids
  · refine ((mem_ofKind_insert fresh).mp own).resolve_right fun ⟨_, kind⟩ => ?_
    cases net <;> cases kind

theorem gains_binding (fresh : c.node? id = none)
    (allowed : ids ⊆ c.allowed .binding .specializesInto) (none : c.bindingsOf ids = ∅) :
    c.Gains ∅ {c.entities ids} ((c.insert id .binding).linkAll id .specializesInto ids) := by
  have outgrowth := regular.binding fresh allowed none
  have found := c.insert_node?_self id .binding
  have unknown := not_denotes (c := c.insert id .binding) ⟨_, found, rfl⟩ fun e =>
      e.kind_ne_binding
  have subjects (b : NodeId) :
      ((c.insert id .binding).linkAll id .specializesInto ids).subjects b =
        if b = id then ids else c.subjects b :=
    regular.valid.targets_linked fresh .binding .specializesInto ids b
  have entities : ((c.insert id .binding).linkAll id .specializesInto ids).entities ids =
      c.entities ids := by
    refine Set.ext fun e => exists_congr fun t => and_congr_right fun mem => ?_
    exact outgrowth.denotes_iff (ofKind_subset_live _ (allowed mem).choose_spec.1)
  refine ⟨outgrowth, ?_, Set.Subset.antisymm ?_ (Set.union_subset outgrowth.grouped_subset ?_)⟩
  · have linked := shown_linkAll_none
      (by decide : Relation.specializesInto ≠ .caller ∧ Relation.specializesInto ≠ .callees)
        unknown ids
    rw [Set.union_empty, linked, regular.shown_insert_none fresh unknown]
  · rintro _ ⟨b, own, rfl⟩
    by_cases self : b = id
    · rw [subjects, if_pos self, entities]
      exact Or.inr rfl
    · have old : b ∈ c.ofKind .binding :=
        ((mem_ofKind_insert fresh).mp own).resolve_right fun new => self new.1
      exact Or.inl ⟨b, old, (outgrowth.entities_subjects old).symm⟩
  · rintro _ rfl
    refine ⟨id, ⟨_, found, rfl⟩, ?_⟩
    rw [subjects, if_pos rfl, entities]

end Regular

end Contents

end BlastRadius
