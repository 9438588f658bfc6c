import BlastRadius.Proofs.Inventory.Outgrowth
import Mathlib.Data.Fintype.EquivFin

/-!
Two outgrowths of the same contents. New nodes that have the same name, that record what the same
node calls or that are bindings about the same entities are counterparts. Each node of an outgrowth
has one in another that shows more, and outgrowths that show the same differ only in the
identifiers of their new nodes.
-/

namespace BlastRadius

/-- What a new node may be known by. -/
inductive Label where
  | entity (entity : Entity)
  | record (net : CallNetwork) (caller : Entity)
  | binding (group : Set Entity)

namespace Contents

variable {base c d : Contents} {x y y' : NodeId} {e : Entity} {l l' : Label}

/-- A node is known by a label. -/
def Bears (c : Contents) (x : NodeId) : Label → Prop
  | .entity e => c.Denotes x e
  | .record net e => ∃ a, c.Records net x a ∧ c.Denotes a e
  | .binding group => x ∈ c.ofKind .binding ∧ c.entities (c.subjects x) = group

theorem Bears.live (bears : c.Bears x l) : x ∈ c.live := by
  cases l with
  | entity e => exact Denotes.live bears
  | record net e => exact ofKind_subset_live _ bears.choose_spec.1.1
  | binding group => exact ofKind_subset_live _ bears.1

namespace Regular

variable (regular : c.Regular)
include regular

theorem label_unique (left : c.Bears x l) (right : c.Bears x l') : l = l' := by
  have apart {e : Entity} {net : CallNetwork} {a : NodeId} (named : c.Denotes x e)
      (records : c.Records net x a) : False :=
    not_denotes records.1 (fun e => e.kind_ne_record net) e named
  have apart' {e : Entity} (named : c.Denotes x e) (binding : x ∈ c.ofKind .binding) : False :=
    not_denotes binding (fun e => e.kind_ne_binding) e named
  have apart'' {net : CallNetwork} {a : NodeId} (records : c.Records net x a)
      (binding : x ∈ c.ofKind .binding) : False := by
    have kind := ofKind_eq records.1 binding
    cases net <;> cases kind
  cases l with
  | entity e =>
      cases l' with
      | entity e' => exact congrArg Label.entity (Denotes.entity_unique left right)
      | record net e' => exact (apart left right.choose_spec.1).elim
      | binding group => exact (apart' left right.1).elim
  | record net e =>
      obtain ⟨a, records, named⟩ := left
      cases l' with
      | entity e' => exact (apart right records).elim
      | record net' e' =>
          obtain ⟨a', records', named'⟩ := right
          obtain rfl := regular.callers x records.2 records'.2
          obtain rfl := CallNetwork.record_kind_injective (ofKind_eq records.1 records'.1)
          rw [named.entity_unique named']
      | binding group => exact (apart'' records right.1).elim
  | binding group =>
      cases l' with
      | entity e' => exact (apart' right left.1).elim
      | record net e' => exact (apart'' right.choose_spec.1 left.1).elim
      | binding group' => exact congrArg Label.binding (left.2.symm.trans right.2)

end Regular

/-- Nodes of two outgrowths of the same contents that stand for the same. -/
def Counterparts (base c d : Contents) (x y : NodeId) : Prop :=
  x ∈ base.live ∧ y = x ∨ (x ∉ base.live ∧ y ∉ base.live) ∧ ∃ l, c.Bears x l ∧
    d.Bears y l

theorem Counterparts.symm (counterparts : Counterparts base c d x y) :
    Counterparts base d c y x := by
  rcases counterparts with ⟨old, rfl⟩ | ⟨⟨newX, newY⟩, l, left, right⟩
  · exact Or.inl ⟨old, rfl⟩
  · exact Or.inr ⟨⟨newY, newX⟩, l, right, left⟩

theorem Counterparts.fixed (counterparts : Counterparts base c d x y) (old : x ∈ base.live) :
    y = x :=
  counterparts.elim And.right fun new => absurd old new.1.1

namespace Outgrowth

section One

variable (outgrowth : Outgrowth base c)
include outgrowth

theorem bearer_unique (new : x ∉ base.live) (left : c.Bears x l) (right : c.Bears y l) :
    y = x := by
  have regular := outgrowth.after
  cases l with
  | entity e => exact regular.valid.denotes_unique right left
  | record net e =>
      obtain ⟨a, records, denotes⟩ := left
      obtain ⟨a', records', denotes'⟩ := right
      obtain rfl := regular.valid.denotes_unique denotes denotes'
      exact regular.records a records'.2 records.2
  | binding group =>
      obtain ⟨own, same⟩ := left
      obtain ⟨own', same'⟩ := right
      have old : x ∉ base.ofKind .binding := fun old => new (ofKind_subset_live _ old)
      refine outgrowth.bindings.distinct x own old y own' (Set.Subset.antisymm ?_ ?_)
      · exact regular.valid.subset_of_entities (fun _ => regular.subject_denotes)
          (same'.trans same.symm).subset
      · exact regular.valid.subset_of_entities (fun _ => regular.subject_denotes)
          (same.trans same'.symm).subset

theorem records_old {net : CallNetwork} {r a : NodeId} (old : r ∈ base.live)
    (records : c.Records net r a) : base.Records net r a := by
  have edge : ⟨r, .caller, a⟩ ∈ base.edges := by
    by_contra new
    rcases outgrowth.edge records.2 new with plain | ⟨_, fresh⟩ | ⟨callees, _⟩
    · cases plain
    · exact fresh old
    · cases callees
  obtain ⟨net', records', _⟩ := outgrowth.before.valid.exists_records edge
  obtain rfl := CallNetwork.record_kind_injective
    (ofKind_eq records.1 (records'.extended outgrowth.extended).1)
  exact records'

end One

variable (left : Outgrowth base c) (right : Outgrowth base d)
include right

theorem counterpart_live (counterparts : Counterparts base c d x y) : y ∈ d.live := by
  rcases counterparts with ⟨old, rfl⟩ | ⟨_, l, _, bears⟩
  · exact right.live_subset old
  · exact bears.live

include left

theorem counterpart_unique (first : Counterparts base c d x y)
    (second : Counterparts base c d x y') :
    y = y' := by
  rcases first with ⟨old, rfl⟩ | ⟨⟨newX, newY⟩, l, hx, hy⟩
  · rcases second with ⟨_, rfl⟩ | ⟨⟨newX, _⟩, _⟩
    · rfl
    · exact absurd old newX
  · rcases second with ⟨old, _⟩ | ⟨_, l', hx', hy'⟩
    · exact absurd old newX
    · obtain rfl := left.after.label_unique hx hx'
      exact (right.bearer_unique newY hy hy').symm

theorem counterpart_denotes (counterparts : Counterparts base c d x y) (denotes : c.Denotes x e) :
    d.Denotes y e := by
  rcases counterparts with ⟨old, rfl⟩ | ⟨_, l, hx, hy⟩
  · exact (right.denotes_iff old).mpr ((left.denotes_iff old).mp denotes)
  · have named : c.Bears x (.entity e) := denotes
    obtain rfl := left.after.label_unique hx named
    exact hy

theorem counterpart_of_denotes (counterparts : Counterparts base c d x y) (denotes : c.Denotes x e)
    (other : d.Denotes y' e) : y' = y :=
  right.after.valid.denotes_unique other (left.counterpart_denotes right counterparts denotes)

section More

variable (shown : c.shown ⊆ d.shown) (grouped : c.grouped ⊆ d.grouped)
include shown grouped

theorem exists_counterpart (live : x ∈ c.live) : ∃ y, Counterparts base c d x y := by
  by_cases old : x ∈ base.live
  · exact ⟨x, Or.inl ⟨old, rfl⟩⟩
  suffices ∃ l y, c.Bears x l ∧ d.Bears y l ∧ y ∉ base.live by
    obtain ⟨l, y, hx, hy, new⟩ := this
    exact ⟨y, Or.inr ⟨⟨old, new⟩, l, hx, hy⟩⟩
  rcases left.node live old with ⟨e, denotes⟩ | binding | ⟨net, a, t, records, called⟩
  · have present : Fact.present e ∈ c.shown := ⟨x, denotes⟩
    obtain ⟨y, denotes'⟩ := shown present
    refine ⟨.entity e, y, denotes, denotes', fun known => old ?_⟩
    have again := (left.denotes_iff known).mpr ((right.denotes_iff known).mp denotes')
    exact left.after.valid.denotes_unique denotes again ▸ known
  · obtain ⟨y, own, same⟩ := grouped ⟨x, binding, rfl⟩
    refine ⟨.binding _, y, ⟨binding, rfl⟩, ⟨own, same⟩, fun known => old ?_⟩
    obtain ⟨node, found⟩ := known
    have own' : y ∈ base.ofKind .binding :=
      ⟨node, found, (mem_ofKind (right.extended.nodes found)).mp own⟩
    have again : c.Bears y (.binding (c.entities (c.subjects x))) := by
      refine ⟨left.bindings.stay y own', ?_⟩
      rw [left.entities_subjects own', ← right.entities_subjects own', same]
    have bears : c.Bears x (.binding _) := ⟨binding, rfl⟩
    exact left.bearer_unique old bears again ▸ ⟨node, found⟩
  · obtain ⟨e, denotes⟩ := left.after.caller_denotes records
    obtain ⟨e', denotes'⟩ := left.after.callee_denotes called
    have calls : Fact.calls net e e' ∈ c.shown :=
      ⟨a, t, denotes, denotes', x, records.1, records.2, called⟩
    obtain ⟨b, _, hb, _, r, own, calling, _⟩ := shown calls
    refine ⟨.record net e, r, ⟨a, records, denotes⟩, ⟨b, ⟨own, calling⟩, hb⟩,
      fun known => old ?_⟩
    have records' := right.records_old known ⟨own, calling⟩
    have live := right.before.valid.target_live records'.2
    have again : c.Bears r (.record net e) := ⟨b, records'.extended left.extended,
      (left.denotes_iff live).mpr ((right.denotes_iff live).mp hb)⟩
    have bears : c.Bears x (.record net e) := ⟨a, records, denotes⟩
    exact left.bearer_unique old bears again ▸ known

/-- The nodes may be taken to their counterparts. -/
theorem exists_renaming_to : ∃ p : Renaming, ∀ x ∈ c.live, Counterparts base c d x (p x) := by
  classical
  have := Fintype.ofFinite NodeId
  choose! m counterpart using
    fun x (live : x ∈ c.live) => left.exists_counterpart right shown grouped live
  have injective : Set.InjOn m c.live := by
    intro x hx y hy same
    have back := (counterpart y hy).symm
    rw [← same] at back
    exact right.counterpart_unique left (counterpart x hx).symm back
  -- There are finitely many identifiers, so that the map extends to a renaming of all of them.
  obtain ⟨g, extends_m⟩ := Set.MapsTo.exists_equiv_extend_of_card_eq (t := Finset.univ)
    Finset.card_univ.symm (fun x _ => Finset.mem_coe.mpr (Finset.mem_univ (m x))) injective
  refine ⟨g.trans (Equiv.subtypeUnivEquiv Finset.mem_univ), fun x live => ?_⟩
  rw [Equiv.trans_apply, Equiv.subtypeUnivEquiv_apply, extends_m x live]
  exact counterpart x live

/-- Where there is a node without counterparts, there are more nodes. -/
theorem ncard_lt (live : y ∈ d.live) (none : ∀ x, ¬ Counterparts base c d x y) :
    c.live.ncard < d.live.ncard := by
  obtain ⟨p, counterpart⟩ := left.exists_renaming_to right shown grouped
  rw [← NodeId.ncard_image p c.live]
  refine Set.ncard_lt_ncard ((Set.ssubset_iff_of_subset ?_).mpr ⟨y, live, ?_⟩)
  · rintro _ ⟨x, hx, rfl⟩
    exact right.counterpart_live (counterpart x hx)
  · rintro ⟨x, hx, rfl⟩
    exact none x (counterpart x hx)

theorem ncard_lt_of_wants {fact : Fact} (wants : c.Wants fact) (known : fact ∈ d.shown) :
    c.live.ncard < d.live.ncard := by
  cases fact with
  | present e =>
      obtain ⟨y, denotes⟩ := known
      refine left.ncard_lt right shown grouped denotes.live fun x counterparts => ?_
      exact wants x (right.counterpart_denotes left counterparts.symm denotes)
  | related => exact wants.elim
  | calls net e e' =>
      obtain ⟨a, _, denotes, _, r, own, calling, _⟩ := known
      refine left.ncard_lt right shown grouped (ofKind_subset_live _ own) fun x counterparts => ?_
      rcases counterparts with ⟨old, rfl⟩ | ⟨_, l, hx, hy⟩
      · have records := right.records_old old ⟨own, calling⟩
        have live := right.before.valid.target_live records.2
        exact wants r a (records.extended left.extended)
          ((left.denotes_iff live).mpr ((right.denotes_iff live).mp denotes))
      · have records : d.Bears r (.record net e) := ⟨a, ⟨own, calling⟩, denotes⟩
        obtain rfl := right.after.label_unique hy records
        obtain ⟨b, records, denotes'⟩ := hx
        exact wants x b records denotes'

theorem ncard_lt_of_group {group : Set Entity} (none : group ∉ c.grouped)
    (known : group ∈ d.grouped) :
    c.live.ncard < d.live.ncard := by
  obtain ⟨b, own, rfl⟩ := known
  refine left.ncard_lt right shown grouped (ofKind_subset_live _ own) fun x counterparts => none ?_
  rcases counterparts with ⟨⟨node, found⟩, rfl⟩ | ⟨_, l, hx, hy⟩
  · have own' : b ∈ base.ofKind .binding :=
      ⟨node, found, (mem_ofKind (right.extended.nodes found)).mp own⟩
    refine ⟨b, left.bindings.stay b own', ?_⟩
    rw [left.entities_subjects own', right.entities_subjects own']
  · have binds : d.Bears b (.binding (d.entities (d.subjects b))) := ⟨own, rfl⟩
    obtain rfl := right.after.label_unique hy binds
    exact ⟨x, hx.1, hx.2⟩

end More

section Same

variable {p : Renaming} (counterpart : ∀ x ∈ c.live, Counterparts base c d x (p x))
include counterpart

theorem node_renamed {node : Node} (found : c.node? x = some node) :
    d.node? (p x) = some (node.rename p) := by
  have fixes {y : NodeId} (old : y ∈ base.live) : p y = y :=
    (counterpart y (left.live_subset old)).fixed old
  rcases counterpart x (mem_live found) with ⟨⟨other, known⟩, same⟩ | ⟨_, l, hx, hy⟩
  · cases found.symm.trans (left.extended.nodes known)
    rw [same, right.extended.nodes known]
    cases node with
    | endpoint name owner =>
        rw [Node.rename, fixes (ofKind_subset_live _ (left.before.component known))]
    | _ => rfl
  · cases l with
    | entity e =>
        cases e with
        | endpoint endpoint =>
            obtain ⟨owner, component, known⟩ := hx
            cases found.symm.trans known
            obtain ⟨owner', component', known'⟩ := hy
            have same : owner' = p owner := left.counterpart_of_denotes right
              (counterpart owner (mem_live component)) (e := .component _) component component'
            rw [known', same]
            rfl
        | _ =>
            cases found.symm.trans hx
            exact hy
    | record net e =>
        obtain ⟨a, ⟨own, _⟩, _⟩ := hx
        obtain ⟨b, ⟨⟨node', found', kind'⟩, _⟩, _⟩ := hy
        have kind := (mem_ofKind found).mp own
        cases net <;> cases node <;> cases kind <;> cases node' <;> cases kind' <;> exact found'
    | binding group =>
        obtain ⟨node', found', kind'⟩ := hy.1
        have kind := (mem_ofKind found).mp hx.1
        cases node <;> cases kind
        cases node' <;> cases kind'
        exact found'

theorem caller_renamed {r a : NodeId} (edge : ⟨r, .caller, a⟩ ∈ c.edges) :
    ⟨p r, .caller, p a⟩ ∈ d.edges := by
  have fixes {y : NodeId} (old : y ∈ base.live) : p y = y :=
    (counterpart y (left.live_subset old)).fixed old
  obtain ⟨net, records, _⟩ := left.after.valid.exists_records edge
  obtain ⟨e, denotes⟩ := left.after.caller_denotes records
  have live := ofKind_subset_live _ records.1
  rcases counterpart r live with ⟨old, same⟩ | ⟨_, l, hx, hy⟩
  · have held := left.records_old old records
    rw [same, fixes (left.before.valid.target_live held.2)]
    exact right.extended.edges held.2
  · have bears : c.Bears r (.record net e) := ⟨a, records, denotes⟩
    obtain rfl := left.after.label_unique hx bears
    obtain ⟨b, records', denotes'⟩ := hy
    rw [← left.counterpart_of_denotes right
      (counterpart a (left.after.valid.target_live edge)) denotes denotes']
    exact records'.2

variable (shown : c.shown ⊆ d.shown)
include shown

theorem edge_renamed {relation : Relation} (edge : ⟨x, relation, y⟩ ∈ c.edges) :
    ⟨p x, relation, p y⟩ ∈ d.edges := by
  have fixes {y : NodeId} (old : y ∈ base.live) : p y = y :=
    (counterpart y (left.live_subset old)).fixed old
  have valid := left.after.valid
  have hx := counterpart x (valid.source_live edge)
  have hy := counterpart y (valid.target_live edge)
  by_cases old : ⟨x, relation, y⟩ ∈ base.edges
  · rw [fixes (left.before.valid.source_live old), fixes (left.before.valid.target_live old)]
    exact right.extended.edges old
  rcases left.edge edge old with plain | ⟨rfl | rfl, fresh⟩ | ⟨rfl, net, a, records⟩
  · obtain ⟨kind, kind', source, target, permitted⟩ := valid.kinds edge
    have schema : ∀ p ∈ Relation.permitted, p.1.plain = true →
        p.2.1.named = true ∧ p.2.2.named = true := by
      decide
    have named := schema _ permitted plain
    obtain ⟨e, denotes⟩ := left.after.exists_denotes source named.1
    obtain ⟨e', denotes'⟩ := left.after.exists_denotes target named.2
    have related : Fact.related e relation e' ∈ c.shown := ⟨x, y, denotes, denotes', edge⟩
    obtain ⟨x', y', source', target', edge'⟩ := shown related
    rwa [left.counterpart_of_denotes right hx denotes source',
      left.counterpart_of_denotes right hy denotes' target'] at edge'
  · exact left.caller_renamed right counterpart edge
  · obtain ⟨⟨old, _⟩⟩ | ⟨_, l, bears, bears'⟩ := hx
    · exact absurd old fresh
    · have own : x ∈ c.ofKind .binding := valid.source_kind (by decide) edge
      have binds : c.Bears x (.binding (c.entities (c.subjects x))) := ⟨own, rfl⟩
      obtain rfl := left.after.label_unique bears binds
      obtain ⟨e, denotes⟩ := left.after.subject_denotes edge
      have about : e ∈ c.entities (c.subjects x) := ⟨y, edge, denotes⟩
      obtain ⟨y', edge', denotes'⟩ := bears'.2.symm.subset about
      rwa [left.counterpart_of_denotes right hy denotes denotes'] at edge'
  · obtain ⟨e, denotes⟩ := left.after.caller_denotes records
    obtain ⟨e', denotes'⟩ := left.after.callee_denotes edge
    have calls : Fact.calls net e e' ∈ c.shown :=
      ⟨a, y, denotes, denotes', x, records.1, records.2, edge⟩
    obtain ⟨b, y', caller, callee, r, _, calling, called⟩ := shown calls
    have ha := counterpart a (valid.target_live records.2)
    obtain rfl := left.counterpart_of_denotes right ha denotes caller
    rw [left.counterpart_of_denotes right hy denotes' callee] at called
    rwa [right.after.records _ calling (left.caller_renamed right counterpart records.2)] at called

end Same

theorem exists_renaming (shown : c.shown = d.shown) (grouped : c.grouped = d.grouped) :
    ∃ p : Renaming, (∀ x ∈ base.live, p x = x) ∧ c.rename p = d := by
  obtain ⟨p, counterpart⟩ := left.exists_renaming_to right shown.subset grouped.subset
  have fixes {x : NodeId} (old : x ∈ base.live) : p x = x :=
    (counterpart x (left.live_subset old)).fixed old
  have back : ∀ y ∈ d.live, p.symm y ∈ c.live ∧ Counterparts base d c y (p.symm y) := by
    intro y live
    obtain ⟨x, other⟩ := right.exists_counterpart left shown.symm.subset
      grouped.symm.subset live
    have hx := left.counterpart_live other
    obtain rfl := left.counterpart_unique right (counterpart x hx) other.symm
    rw [Equiv.symm_apply_apply]
    exact ⟨hx, other⟩
  refine ⟨p, fun x old => fixes old, Contents.ext (funext fun y => ?_)
    (Set.ext fun edge => ?_) ?_⟩
  · rw [rename_node?_apply]
    cases found : c.node? (p.symm y) with
    | some node =>
        have renamed := left.node_renamed right counterpart found
        rw [Equiv.apply_symm_apply] at renamed
        rw [renamed, Option.map_some]
    | none =>
        refine (not_mem_live.mp fun live => ?_).symm
        exact not_mem_live.mpr found (back y live).1
  · obtain ⟨s, relation, t⟩ := edge
    rw [mem_rename_edges]
    constructor
    · intro held
      have renamed := left.edge_renamed right counterpart shown.subset held
      rwa [Equiv.apply_symm_apply, Equiv.apply_symm_apply] at renamed
    · exact fun held => right.edge_renamed left (fun y live => (back y live).2)
        shown.symm.subset held
  · rw [rename_marked, left.marked, right.marked]
    refine Set.ext fun x => ?_
    constructor
    · rintro ⟨y, marked, rfl⟩
      rwa [fixes (left.before.valid.marked_live marked)]
    · exact fun marked => ⟨x, marked, fixes (left.before.valid.marked_live marked)⟩

end Outgrowth

end Contents

end BlastRadius
