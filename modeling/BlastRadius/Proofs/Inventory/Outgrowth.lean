import BlastRadius.Proofs.Inventory.DistinctBindings
import BlastRadius.Proofs.Inventory.Facts

/-!
What grows out of contents when facts and bindings are recorded. Whatever is new has a name, is the
record of a named caller, or is a binding about nodes that no other is about.
-/

namespace BlastRadius

/-- Whether edges of a relation relate entities. -/
def Relation.plain : Relation → Bool
  | provides | exposes | serves | hostedBy | composedOf => true
  | _ => false

namespace Contents

variable {base c c' : Contents} {q : Call} {id x y r a owner : NodeId} {e : Entity}

/-- Contents in which endpoints are placed and each caller has one record. -/
structure Regular (c : Contents) : Prop extends Placed c, Recorded c

def grouped (c : Contents) : Set (Set Entity) :=
  {parts | ∃ b ∈ c.ofKind .binding, c.entities (c.subjects b) = parts}

/-- A node that records what a node calls in a network. -/
def Records (c : Contents) (net : CallNetwork) (r a : NodeId) : Prop :=
  r ∈ c.ofKind net.record.kind ∧ ⟨r, .caller, a⟩ ∈ c.edges

/-- A fact for which the contents lack a node. -/
def Wants (c : Contents) : Fact → Prop
  | .present e => ∀ x, ¬ c.Denotes x e
  | .related .. => False
  | .calls net e _ => ∀ r a, c.Records net r a → ¬ c.Denotes a e

/-- Contents that came of others by recording facts and bindings. -/
structure Outgrowth (base c : Contents) : Prop where
  before : base.Regular
  after : c.Regular
  extended : base.ExtendedBy c
  marked : c.marked = base.marked
  bindings : base.BindingsKept c
  node {x : NodeId} : x ∈ c.live → x ∉ base.live → (∃ e, c.Denotes x e) ∨
    x ∈ c.ofKind .binding ∨
    ∃ net a t, c.Records net x a ∧ ⟨x, .callees, t⟩ ∈ c.edges
  edge {x y : NodeId} {relation : Relation} :
    ⟨x, relation, y⟩ ∈ c.edges → ⟨x, relation, y⟩ ∉ base.edges →
      relation.plain = true ∨
      (relation = .caller ∨ relation = .specializesInto) ∧ x ∉ base.live ∨
      relation = .callees ∧ ∃ net a, c.Records net x a

theorem Records.extended {net : CallNetwork} (records : c.Records net r a)
    (extended : c.ExtendedBy c') :
    c'.Records net r a := by
  obtain ⟨⟨node, found, own⟩, edge⟩ := records
  exact ⟨⟨node, extended.nodes found, own⟩, extended.edges edge⟩

theorem Valid.exists_records (valid : c.Valid) (edge : ⟨r, .caller, a⟩ ∈ c.edges) :
    ∃ net, c.Records net r a ∧ a ∈ c.ofKind net.caller := by
  obtain ⟨kind, kind', source, target, permitted⟩ := valid.kinds edge
  have schema : ∀ p ∈ Relation.permitted, p.1 = .caller →
      ∃ net ∈ [CallNetwork.code, .network], p.2.1 = net.record.kind ∧ p.2.2 = net.caller := by
    decide
  obtain ⟨net, _, record, caller⟩ := schema _ permitted rfl
  exact ⟨net, ⟨record ▸ source, edge⟩, caller ▸ target⟩

namespace Regular

variable (regular : c.Regular)
include regular

theorem change (change : c.Change q c') (places : q.touches .endpoint .exposes = false)
    (records : ∀ e, q = .insertEdge e → e.relation ≠ .caller) : c'.Regular :=
  have recorded := change.recorded records regular.toRecorded
  ⟨regular.toPlaced.change change places, recorded.records, recorded.callers⟩

theorem linkAll_placed {relation : Relation} {ids : Set NodeId} (other : relation ≠ .exposes)
    (valid : (c.linkAll x relation ids).Valid) : (c.linkAll x relation ids).Placed where
  valid := valid
  owner s t edge := regular.owner s t (edge.resolve_right fun new => other new.2.1.symm)
  exposed found := (regular.exposed found).imp_right Or.inl

theorem caller_denotes {net : CallNetwork} (records : c.Records net r a) :
    ∃ e, c.Denotes a e := by
  obtain ⟨net', _, own⟩ := regular.valid.exists_records records.2
  exact regular.exists_denotes own (by cases net' <;> rfl)

theorem callee_denotes {t : NodeId} (called : ⟨r, .callees, t⟩ ∈ c.edges) :
    ∃ e, c.Denotes t e := by
  obtain ⟨kind, kind', _, target, permitted⟩ := regular.valid.kinds called
  have schema : ∀ p ∈ Relation.permitted, p.1 = .callees → p.2.2.named = true := by
    decide
  exact regular.exists_denotes target (schema _ permitted rfl)

theorem subject_denotes {b t : NodeId} (edge : ⟨b, .specializesInto, t⟩ ∈ c.edges) :
    ∃ e, c.Denotes t e := by
  obtain ⟨kind, kind', _, target, permitted⟩ := regular.valid.kinds edge
  have schema : ∀ p ∈ Relation.permitted, p.1 = .specializesInto → p.2.2.named = true := by
    decide
  exact regular.exists_denotes target (schema _ permitted rfl)

end Regular

section Kept

variable (extended : base.ExtendedBy c) (placed : base.Placed) (bindings : base.BindingsKept c)
include extended placed bindings

theorem ExtendedBy.entities_subjects (old : x ∈ base.ofKind .binding) :
    c.entities (c.subjects x) = base.entities (base.subjects x) := by
  rw [bindings.subjects x old]
  refine Set.ext fun e => exists_congr fun t => and_congr_right fun edge => ?_
  exact extended.denotes_iff placed (placed.valid.target_live edge)

theorem ExtendedBy.grouped_subset : base.grouped ⊆ c.grouped := by
  rintro parts ⟨b, own, same⟩
  exact ⟨b, bindings.stay b own, (extended.entities_subjects placed bindings own).trans same⟩

end Kept

namespace Outgrowth

theorem refl (regular : c.Regular) : Outgrowth c c where
  before := regular
  after := regular
  extended := .refl c
  marked := rfl
  bindings := .refl regular.valid
  node live fresh := absurd live fresh
  edge held new := absurd held new

theorem trans (first : Outgrowth base c) (second : Outgrowth c c') : Outgrowth base c' where
  before := first.before
  after := second.after
  extended := first.extended.trans second.extended
  marked := second.marked.trans first.marked
  bindings := first.bindings.trans second.bindings
  node {x} live fresh := by
    by_cases old : x ∈ c.live
    · refine (first.node old fresh).imp (fun ⟨e, denotes⟩ =>
        ⟨e, denotes.mono second.extended.nodes⟩) ?_
      rintro (binding | ⟨net, a, t, records, called⟩)
      · exact Or.inl (second.bindings.stay x binding)
      · exact Or.inr ⟨net, a, t, records.extended second.extended,
          second.extended.edges called⟩
    · exact second.node live old
  edge {x y relation} held new := by
    by_cases old : ⟨x, relation, y⟩ ∈ c.edges
    · refine (first.edge old new).imp_right (Or.imp_right ?_)
      exact fun ⟨callees, net, a, records⟩ =>
        ⟨callees, net, a, records.extended second.extended⟩
    · refine (second.edge held old).imp_right (Or.imp_left ?_)
      rintro ⟨own, fresh⟩
      exact ⟨own, fun ⟨node, found⟩ => fresh ⟨node, first.extended.nodes found⟩⟩

section Old

variable (outgrowth : Outgrowth base c)
include outgrowth

theorem live_subset : base.live ⊆ c.live :=
  fun _ ⟨node, found⟩ => ⟨node, outgrowth.extended.nodes found⟩

theorem denotes_iff (old : x ∈ base.live) : c.Denotes x e ↔ base.Denotes x e :=
  outgrowth.extended.denotes_iff outgrowth.before.toPlaced old

theorem entities_subjects (old : x ∈ base.ofKind .binding) :
    c.entities (c.subjects x) = base.entities (base.subjects x) :=
  outgrowth.extended.entities_subjects outgrowth.before.toPlaced outgrowth.bindings old

theorem grouped_subset : base.grouped ⊆ c.grouped :=
  outgrowth.extended.grouped_subset outgrowth.before.toPlaced outgrowth.bindings

theorem grouped_eq (none : c.ofKind .binding ⊆ base.ofKind .binding) :
    c.grouped = base.grouped := by
  refine Set.Subset.antisymm ?_ outgrowth.grouped_subset
  rintro parts ⟨b, own, same⟩
  exact ⟨b, none own, (outgrowth.entities_subjects (none own)).symm.trans same⟩

end Old

end Outgrowth

namespace Regular

variable (regular : c.Regular)
include regular

theorem entity {node : Node} (fresh : c.node? id = none)
    (free : ∀ key, node.key? = some key → c.keyed key = ∅)
    (new : (c.insert id node).Denotes id e)
    (other : e.kind ≠ .endpoint) : Outgrowth c (c.insert id node) where
  before := regular
  after := by
    have kind := (mem_ofKind (insert_node?_self id node)).mp new.ofKind
    exact regular.change (.node fresh free) (beq_eq_false_iff_ne.mpr (kind ▸ other)) nofun
  extended := insert_extendedBy fresh node
  marked := rfl
  bindings := by
    have kind := (mem_ofKind (insert_node?_self id node)).mp new.ofKind
    refine (Change.node fresh free).bindingsKept regular.valid (beq_eq_false_iff_ne.mpr ?_)
    exact kind ▸ e.kind_ne_binding.symm
  node live old := by
    rcases live_insert id node ▸ live with rfl | live
    · exact Or.inl ⟨e, new⟩
    · exact absurd live old
  edge held new := absurd held new

theorem relation {relation : Relation} {kind kind' : NodeKind} (source : x ∈ c.ofKind kind)
    (target : y ∈ c.ofKind kind') (permitted : relation.permits kind kind' = true)
    (plain : relation.plain = true) (other : relation ≠ .exposes) :
    Outgrowth c (c.link ⟨x, relation, y⟩) where
  before := regular
  after := by
    obtain ⟨s, hs, rfl⟩ := source
    obtain ⟨t, ht, rfl⟩ := target
    refine regular.change (.edge hs ht permitted) (beq_eq_false_iff_ne.mpr other) ?_
    rintro _ ⟨⟩ rfl
    cases plain
  extended := link_extendedBy _
  marked := rfl
  bindings := by
    obtain ⟨s, hs, rfl⟩ := source
    obtain ⟨t, ht, rfl⟩ := target
    refine Change.bindingsKept (.edge hs ht permitted) regular.valid (beq_eq_false_iff_ne.mpr ?_)
    rintro rfl
    cases plain
  node live old := absurd live old
  edge held new := by
    cases held.resolve_right new
    exact Or.inl plain

theorem endpoint {endpoint : EndpointRef} (fresh : c.node? id = none)
    (free : c.keyed (.endpoint endpoint.name owner) = ∅)
    (component : c.Denotes owner (.component endpoint.component))
    (named : endpoint.name.isEmpty = false) :
    Outgrowth c ((c.insert id (.endpoint endpoint.name owner)).link ⟨id, .exposes, owner⟩) := by
  have free' (key : NodeKey) (own : Node.key? (.endpoint endpoint.name owner) = some key) :
      c.keyed key = ∅ := by
    cases own
    exact free
  have owned := regular.toOwned.insert fresh free'
  have found := c.insert_node?_self id (.endpoint endpoint.name owner)
  have held : (c.insert id (.endpoint endpoint.name owner)).node? owner =
      some (.component endpoint.component) := insert_node?_of_some fresh component
  have first : c.Change _ _ := .node fresh free'
  have second : Change _ _ _ := .edge (e := ⟨id, .exposes, owner⟩) found held rfl
  have recorded := second.recorded (by rintro _ ⟨⟩; exact nofun)
    (first.recorded nofun regular.toRecorded)
  refine
    { before := regular, marked := rfl
      extended := (insert_extendedBy fresh _).trans (link_extendedBy _)
      after := ⟨⟨(owned.exposed found held rfl).owned, fun {k other o} known => ?_⟩,
        recorded.records, recorded.callers⟩
      bindings := (first.bindingsKept regular.valid rfl).trans (second.bindingsKept owned.valid rfl)
      node := fun {x} live old => ?_, edge := fun {x y relation} edge new => ?_ }
  · change (c.insert id (.endpoint endpoint.name owner)).node? k = _ at known
    by_cases self : k = id
    · subst self
      cases found.symm.trans known
      exact ⟨named, Or.inl rfl⟩
    · rw [insert_node?_of_ne _ self] at known
      exact (regular.exposed known).imp_right Or.inr
  · rcases live_insert id (.endpoint endpoint.name owner) ▸ live with rfl | live
    · exact Or.inl ⟨.endpoint endpoint, owner, held, found⟩
    · exact absurd live old
  · cases edge.resolve_right new
    exact Or.inl rfl

theorem callees {net : CallNetwork} {ids : Set NodeId} (records : c.Records net r a)
    (targets : ids ⊆ c.ofKind net.caller) : Outgrowth c (c.linkAll r .callees ids) := by
  have valid := regular.valid.linkAll records.1 fun t mem =>
    (⟨net.caller, targets mem, net.permits_callees⟩ : t ∈ c.allowed _ _)
  have recorded := regular.toRecorded.linked valid
  exact
    { before := regular, extended := linkAll_extendedBy .., marked := rfl
      after := ⟨regular.linkAll_placed nofun valid, recorded.records, recorded.callers⟩
      bindings := by
        refine .of_same valid rfl fun b => Set.ext fun t => ?_
        exact or_iff_left fun ⟨_, same, _⟩ => nomatch same
      node := fun live old => absurd live old
      edge := fun {x y relation} edge new => by
        obtain ⟨rfl, rfl, _⟩ := edge.resolve_left new
        exact Or.inr (Or.inr ⟨rfl, net, a, records.extended (linkAll_extendedBy ..)⟩) }

theorem first_callees {net : CallNetwork} {ids : Set NodeId} (fresh : c.node? r = none)
    (none : c.sources a .caller = ∅) (caller : a ∈ c.ofKind net.caller)
    (targets : ids ⊆ c.ofKind net.caller) (nonempty : ids.Nonempty) :
    Outgrowth c ((c.record net r a).linkAll r .callees ids) := by
  have caller' : a ∈ (c.insert r net.record).ofKind net.caller :=
    (mem_ofKind_insert fresh).mpr (Or.inl caller)
  obtain ⟨target, held, kind⟩ := caller'
  have found := c.insert_node?_self r net.record
  have unkeyed (key : NodeKey) (own : net.record.key? = some key) : c.keyed key = ∅ := by
    cases net <;> cases own
  have permitted : Relation.caller.permits net.record.kind target.kind = true :=
    kind ▸ net.permits_caller
  have first : c.Change _ _ := .node fresh unkeyed
  have second : Change _ _ (c.record net r a) := .edge found held permitted
  have recorded := regular.toRecorded.record fresh none (second.valid (first.valid regular.valid))
  have places (kind : NodeKind) (own : net.record.kind = kind) :
      kind ≠ .endpoint ∧ kind ≠ .binding := by
    cases net <;> cases own <;> exact ⟨nofun, nofun⟩
  have placed := (regular.toPlaced.change first (beq_eq_false_iff_ne.mpr (places _ rfl).1)).change
    second rfl
  have regular' : (c.record net r a).Regular := ⟨placed, recorded.records, recorded.callers⟩
  have records : (c.record net r a).Records net r a := ⟨⟨_, found, rfl⟩, Or.inl rfl⟩
  have targets' : ids ⊆ (c.record net r a).ofKind net.caller := fun t mem =>
    (mem_ofKind_insert fresh).mpr (Or.inl (targets mem))
  have linked := regular'.callees records targets'
  refine
    { before := regular, after := linked.after, marked := rfl
      extended := ((insert_extendedBy fresh _).trans (link_extendedBy _)).trans linked.extended
      bindings := ((first.bindingsKept regular.valid
        (beq_eq_false_iff_ne.mpr (places _ rfl).2)).trans (second.bindingsKept
          (first.valid regular.valid) rfl)).trans linked.bindings
      node := fun {x} live old => ?_, edge := fun {x y relation} edge new => ?_ }
  · rcases live_insert r net.record ▸ live with rfl | live
    · obtain ⟨t, mem⟩ := nonempty
      exact Or.inr (Or.inr ⟨net, a, t, records.extended linked.extended,
        Or.inr ⟨rfl, rfl, mem⟩⟩)
    · exact absurd live old
  · rcases edge with (made | held) | ⟨rfl, rfl, _⟩
    · cases made
      exact Or.inr (Or.inl ⟨Or.inl rfl, not_mem_live.mpr fresh⟩)
    · exact absurd held new
    · exact Or.inr (Or.inr ⟨rfl, net, a, records.extended linked.extended⟩)

theorem binding {ids : Set NodeId} (fresh : c.node? id = none)
    (allowed : ids ⊆ c.allowed .binding .specializesInto) (none : c.bindingsOf ids = ∅) :
    Outgrowth c ((c.insert id .binding).linkAll id .specializesInto ids) := by
  have kept := bindingsKept_inserted regular.valid fresh allowed none
  have first : c.Change _ (c.insert id .binding) := .node fresh nofun
  have regular' := regular.change first rfl nofun
  refine
    { before := regular, marked := rfl, bindings := kept
      extended := (insert_extendedBy fresh _).trans (linkAll_extendedBy ..)
      after := ⟨regular'.linkAll_placed nofun kept.valid, fun k => ?_, fun k => ?_⟩
      node := fun {x} live old => ?_, edge := fun {x y relation} edge new => ?_ }
  · exact (regular.records k).anti fun s edge => edge.resolve_right nofun
  · exact (regular.callers k).anti fun s edge => edge.resolve_right nofun
  · rcases live_insert id .binding ▸ live with rfl | live
    · exact Or.inr (Or.inl ⟨_, insert_node?_self x _, rfl⟩)
    · exact absurd live old
  · obtain ⟨rfl, rfl, _⟩ := edge.resolve_left new
    exact Or.inr (Or.inl ⟨Or.inr rfl, not_mem_live.mpr fresh⟩)

end Regular

end Contents

end BlastRadius
