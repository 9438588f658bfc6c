import BlastRadius.Proofs.Inventory.CallRecords
import BlastRadius.Proofs.Inventory.Placement

/-!
What is recorded, without identifiers. Whatever has a name of its own is an entity; a
graph shows which entities there are, which of them are related, and which of them call
each other through a record.
-/

namespace BlastRadius

/-- What a client refers to by name. -/
inductive Entity where
  | symbol (identity : String)
  | library (artifact : Artifact)
  | component (artifact : Artifact)
  | asset (artifact : Artifact)
  | system (name : String)
  /-- An endpoint, which goes with its component. -/
  | endpoint (endpoint : EndpointRef)
  deriving DecidableEq, Repr

def NodeKind.named : NodeKind → Bool
  | symbol | library | component | asset | system | endpoint => true
  | _ => false

namespace Entity

def kind : Entity → NodeKind
  | symbol _ => .symbol
  | library _ => .library
  | component _ => .component
  | asset _ => .asset
  | system _ => .system
  | endpoint _ => .endpoint

/-- The kinds of node with which an entity is removed. -/
def kinds : Entity → List NodeKind
  | endpoint _ => [.component, .endpoint]
  | entity => [entity.kind]

theorem kind_ne_record (e : Entity) (net : CallNetwork) : net.record.kind ≠ e.kind := by
  cases e <;> cases net <;> exact nofun

theorem kind_ne_binding (e : Entity) : NodeKind.binding ≠ e.kind := by
  cases e <;> exact nofun

end Entity

/-- A statement about entities. -/
inductive Fact where
  | present (entity : Entity)
  | related (source : Entity) (relation : Relation) (target : Entity)
  /-- One entity calls another through a record of a network. -/
  | calls (net : CallNetwork) (caller callee : Entity)
  deriving DecidableEq, Repr

/-- The kinds of node with which a fact is removed. -/
def Fact.kinds : Fact → List NodeKind
  | present entity => entity.kinds
  | related source _ target => source.kinds ++ target.kinds
  | calls net caller callee => net.record.kind :: (caller.kinds ++ callee.kinds)

namespace Contents

variable {c c' : Contents} {x y : NodeId} {e e' : Entity} {fact : Fact}

/-- A node is that of an entity. -/
def Denotes (c : Contents) (x : NodeId) : Entity → Prop
  | .symbol identity => c.node? x = some (.symbol identity)
  | .library artifact => c.node? x = some (.library artifact)
  | .component artifact => c.node? x = some (.component artifact)
  | .asset artifact => c.node? x = some (.asset artifact)
  | .system name => c.node? x = some (.system name)
  | .endpoint endpoint => ∃ owner, c.node? owner = some (.component endpoint.component) ∧
      c.node? x = some (.endpoint endpoint.name owner)

def Shows (c : Contents) : Fact → Prop
  | .present entity => ∃ x, c.Denotes x entity
  | .related source relation target =>
      ∃ x y, c.Denotes x source ∧ c.Denotes y target ∧ ⟨x, relation, y⟩ ∈ c.edges
  | .calls net caller callee => ∃ x y, c.Denotes x caller ∧ c.Denotes y callee ∧
      ∃ r ∈ c.ofKind net.record.kind, ⟨r, .caller, x⟩ ∈ c.edges ∧
        ⟨r, .callees, y⟩ ∈ c.edges

def entities (c : Contents) (ids : Set NodeId) : Set Entity := {e | ∃ x ∈ ids, c.Denotes x e}

def shown (c : Contents) : Set Fact := {fact | c.Shows fact}

theorem Denotes.ofKind (denotes : c.Denotes x e) : x ∈ c.ofKind e.kind := by
  cases e with
  | endpoint endpoint =>
      obtain ⟨_, _, found⟩ := denotes
      exact ⟨_, found, rfl⟩
  | _ => exact ⟨_, denotes, rfl⟩

theorem Denotes.live (denotes : c.Denotes x e) : x ∈ c.live :=
  ofKind_subset_live _ denotes.ofKind

theorem Denotes.entity_unique (denotes : c.Denotes x e) (other : c.Denotes x e') : e = e' := by
  cases e with
  | endpoint endpoint =>
      obtain ⟨owner, component, found⟩ := denotes
      cases e' with
      | endpoint endpoint' =>
          obtain ⟨owner', component', found'⟩ := other
          obtain ⟨artifact, name⟩ := endpoint
          obtain ⟨artifact', name'⟩ := endpoint'
          cases found.symm.trans found'
          cases component.symm.trans component'
          rfl
      | _ => cases found.symm.trans other
  | _ =>
      cases e' with
      | endpoint endpoint =>
          obtain ⟨_, _, found⟩ := other
          cases denotes.symm.trans found
      | _ => cases denotes.symm.trans other <;> rfl

theorem Valid.node_unique (valid : c.Valid) {node : Node} {key : NodeKey}
    (keyed : node.key? = some key)
    (hx : c.node? x = some node) (hy : c.node? y = some node) : x = y :=
  valid.key_unique key ⟨node, hx, keyed⟩ ⟨node, hy, keyed⟩

theorem Valid.denotes_unique (valid : c.Valid) (hx : c.Denotes x e) (hy : c.Denotes y e) :
    x = y := by
  cases e with
  | endpoint endpoint =>
      obtain ⟨owner, component, found⟩ := hx
      obtain ⟨owner', component', found'⟩ := hy
      obtain rfl := valid.node_unique rfl component component'
      exact valid.node_unique rfl found found'
  | _ => exact valid.node_unique rfl hx hy

theorem Valid.subset_of_entities (valid : c.Valid) {ids ids' : Set NodeId}
    (named : ∀ t ∈ ids, ∃ e, c.Denotes t e) (fewer : c.entities ids ⊆ c.entities ids') :
      ids ⊆ ids' := by
  intro t mem
  obtain ⟨e, denotes⟩ := named t mem
  obtain ⟨t', mem', denotes'⟩ := fewer ⟨t, mem, denotes⟩
  rwa [valid.denotes_unique denotes denotes']

theorem Placed.exists_denotes (placed : c.Placed) {kind : NodeKind} (own : x ∈ c.ofKind kind)
    (named : kind.named = true) : ∃ e, c.Denotes x e := by
  obtain ⟨node, found, rfl⟩ := own
  cases node with
  | symbol identity => exact ⟨.symbol identity, found⟩
  | library artifact => exact ⟨.library artifact, found⟩
  | component artifact => exact ⟨.component artifact, found⟩
  | asset artifact => exact ⟨.asset artifact, found⟩
  | system name => exact ⟨.system name, found⟩
  | endpoint name owner =>
      obtain ⟨other, held, kind⟩ := placed.component found
      cases other with
      | component artifact => exact ⟨.endpoint ⟨artifact, name⟩, owner, held, found⟩
      | _ => cases kind
  | _ => cases named

theorem Denotes.mono (nodes : ∀ {id node}, c.node? id = some node → c'.node? id = some node)
    (denotes : c.Denotes x e) : c'.Denotes x e := by
  cases e with
  | endpoint endpoint =>
      obtain ⟨owner, component, found⟩ := denotes
      exact ⟨owner, nodes component, nodes found⟩
  | _ => exact nodes denotes

theorem ExtendedBy.denotes_iff (extended : c.ExtendedBy c') (placed : c.Placed)
    (old : x ∈ c.live) :
    c'.Denotes x e ↔ c.Denotes x e := by
  refine ⟨fun denotes => ?_, Denotes.mono extended.nodes⟩
  have same {k : NodeId} {node : Node} (live : k ∈ c.live) (found : c'.node? k = some node) :
      c.node? k = some node := by
    obtain ⟨other, known⟩ := live
    rw [known, ← extended.nodes known, found]
  cases e with
  | endpoint endpoint =>
      obtain ⟨owner, component, found⟩ := denotes
      have known := same old found
      exact ⟨owner, same (ofKind_subset_live _ (placed.component known)) component, known⟩
  | _ => exact same old denotes

theorem ExtendedBy.shows (extended : c.ExtendedBy c') (shows : c.Shows fact) : c'.Shows fact := by
  cases fact with
  | present entity =>
      obtain ⟨x, denotes⟩ := shows
      exact ⟨x, denotes.mono extended.nodes⟩
  | related source relation target =>
      obtain ⟨x, y, hx, hy, edge⟩ := shows
      exact ⟨x, y, hx.mono extended.nodes, hy.mono extended.nodes, extended.edges edge⟩
  | calls net caller callee =>
      obtain ⟨x, y, hx, hy, r, ⟨node, found, own⟩, calling, called⟩ := shows
      exact ⟨x, y, hx.mono extended.nodes, hy.mono extended.nodes, r,
        ⟨node, extended.nodes found, own⟩, extended.edges calling, extended.edges called⟩

theorem ExtendedBy.shown_subset (extended : c.ExtendedBy c') : c.shown ⊆ c'.shown :=
  fun _ => extended.shows

theorem insert_extendedBy {id : NodeId} (fresh : c.node? id = none) (node : Node) :
    c.ExtendedBy (c.insert id node) :=
  ⟨insert_node?_of_some fresh, subset_rfl⟩

theorem link_extendedBy (edge : Edge) : c.ExtendedBy (c.link edge) := ⟨id, fun _ => Or.inr⟩

theorem linkAll_extendedBy (source : NodeId) (relation : Relation) (ids : Set NodeId) :
    c.ExtendedBy (c.linkAll source relation ids) :=
  ⟨id, fun _ => Or.inl⟩

theorem denotes_congr (nodes : c'.node? = c.node?) : c'.Denotes x e ↔ c.Denotes x e := by
  cases e <;> simp only [Denotes, nodes]

theorem shown_congr (nodes : c'.node? = c.node?) (edges : c'.edges = c.edges) :
    c'.shown = c.shown := by
  refine Set.Subset.antisymm (fun fact shows => ?_) fun fact shows => ?_
  · exact ExtendedBy.shows ⟨fun found => nodes ▸ found, edges.subset⟩ shows
  · exact ExtendedBy.shows ⟨fun found => nodes ▸ found, edges.symm.subset⟩ shows

theorem not_denotes {kind : NodeKind} (own : x ∈ c.ofKind kind)
    (other : ∀ e : Entity, kind ≠ e.kind)
    (e : Entity) : ¬ c.Denotes x e :=
  fun denotes => other e (ofKind_eq own denotes.ofKind)

theorem Placed.denotes_insert (placed : c.Placed) {id : NodeId} {node : Node}
    (fresh : c.node? id = none) : (c.insert id node).Denotes x e' ↔
      c.Denotes x e' ∨ x = id ∧ (c.insert id node).Denotes id e' := by
  have extended := insert_extendedBy fresh node
  constructor
  · intro denotes
    rcases live_insert id node ▸ denotes.live with rfl | old
    · exact Or.inr ⟨rfl, denotes⟩
    · exact Or.inl ((extended.denotes_iff placed old).mp denotes)
  · rintro (old | ⟨rfl, new⟩)
    · exact old.mono extended.nodes
    · exact new

theorem Placed.shown_insert_none (placed : c.Placed) {id : NodeId} {node : Node}
    (fresh : c.node? id = none) (none : ∀ e, ¬ (c.insert id node).Denotes id e) :
    (c.insert id node).shown = c.shown := by
  have old {x : NodeId} {e : Entity} (denotes : (c.insert id node).Denotes x e) : c.Denotes x e :=
    ((placed.denotes_insert fresh).mp denotes).resolve_right fun new => none e new.2
  refine Set.Subset.antisymm (fun fact shows => ?_) (insert_extendedBy fresh node).shown_subset
  cases fact with
  | present entity =>
      obtain ⟨x, denotes⟩ := shows
      exact ⟨x, old denotes⟩
  | related source relation target =>
      obtain ⟨x, y, hx, hy, edge⟩ := shows
      exact ⟨x, y, old hx, old hy, edge⟩
  | calls net caller callee =>
      obtain ⟨x, y, hx, hy, r, own, calling, called⟩ := shows
      refine ⟨x, y, old hx, old hy, r, ?_, calling, called⟩
      rcases (mem_ofKind_insert fresh).mp own with own | ⟨rfl, _⟩
      · exact own
      · exact absurd (placed.valid.source_live calling) (not_mem_live.mpr fresh)

theorem Placed.shown_insert (placed : c.Placed) {id : NodeId} {node : Node}
    (fresh : c.node? id = none) (new : (c.insert id node).Denotes id e) :
    (c.insert id node).shown = c.shown ∪ {.present e} := by
  have old {x : NodeId} {e' : Entity} (live : x ∈ c.live)
      (denotes : (c.insert id node).Denotes x e') : c.Denotes x e' := by
    refine ((placed.denotes_insert fresh).mp denotes).resolve_right fun ⟨same, _⟩ => ?_
    exact not_mem_live.mpr fresh (same ▸ live)
  refine Set.Subset.antisymm (fun fact shows => ?_)
    (Set.union_subset (insert_extendedBy fresh node).shown_subset ?_)
  rotate_left
  · rintro _ rfl
    exact ⟨id, new⟩
  cases fact with
  | present entity =>
      obtain ⟨x, denotes⟩ := shows
      rcases (placed.denotes_insert fresh).mp denotes with denotes | ⟨rfl, denotes⟩
      · exact Or.inl ⟨x, denotes⟩
      · exact Or.inr (congrArg Fact.present (denotes.entity_unique new))
  | related source relation target =>
      obtain ⟨x, y, hx, hy, edge⟩ := shows
      exact Or.inl ⟨x, y, old (placed.valid.source_live edge) hx,
        old (placed.valid.target_live edge) hy, edge⟩
  | calls net caller callee =>
      obtain ⟨x, y, hx, hy, r, own, calling, called⟩ := shows
      refine Or.inl ⟨x, y, old (placed.valid.target_live calling) hx,
        old (placed.valid.target_live called) hy, r, ?_, calling, called⟩
      rcases (mem_ofKind_insert fresh).mp own with own | ⟨rfl, _⟩
      · exact own
      · exact absurd (placed.valid.source_live calling) (not_mem_live.mpr fresh)

theorem mem_shown_link {edge : Edge}
    (plain : edge.relation ≠ .caller ∧ edge.relation ≠ .callees) :
    fact ∈ (c.link edge).shown ↔ fact ∈ c.shown ∨ ∃ e e', c.Denotes edge.source e ∧
      c.Denotes edge.target e' ∧ fact = .related e edge.relation e' := by
  have same {x : NodeId} {e : Entity} : (c.link edge).Denotes x e ↔ c.Denotes x e :=
    denotes_congr rfl
  constructor
  · intro shows
    cases fact with
    | present entity =>
        obtain ⟨x, denotes⟩ := shows
        exact Or.inl ⟨x, same.mp denotes⟩
    | related source relation target =>
        obtain ⟨x, y, hx, hy, rfl | old⟩ := shows
        · exact Or.inr ⟨source, target, same.mp hx, same.mp hy, rfl⟩
        · exact Or.inl ⟨x, y, same.mp hx, same.mp hy, old⟩
    | calls net caller callee =>
        obtain ⟨x, y, hx, hy, r, own, calling, called⟩ := shows
        refine Or.inl ⟨x, y, same.mp hx, same.mp hy, r, own, ?_, ?_⟩
        · exact calling.resolve_left fun new => plain.1 (congrArg Edge.relation new).symm
        · exact called.resolve_left fun new => plain.2 (congrArg Edge.relation new).symm
  · rintro (old | ⟨e, e', hx, hy, rfl⟩)
    · exact (link_extendedBy edge).shows old
    · exact ⟨_, _, same.mpr hx, same.mpr hy, Or.inl rfl⟩

theorem shown_link (edge : Edge) (plain : edge.relation ≠ .caller ∧ edge.relation ≠ .callees)
    (source : c.Denotes edge.source e) (target : c.Denotes edge.target e') :
    (c.link edge).shown = c.shown ∪ {.related e edge.relation e'} := by
  ext fact
  rw [mem_shown_link plain]
  refine or_congr_right ⟨?_, fun same => ⟨e, e', source, target, same⟩⟩
  rintro ⟨s, t, hs, ht, rfl⟩
  rw [hs.entity_unique source, ht.entity_unique target]
  exact Set.mem_singleton _

/-- Edges from a node that is no entity's show nothing, unless they belong to a record. -/
theorem shown_linkAll_none {relation : Relation}
    (plain : relation ≠ .caller ∧ relation ≠ .callees)
    (none : ∀ e, ¬ c.Denotes x e) (ids : Set NodeId) :
      (c.linkAll x relation ids).shown = c.shown := by
  refine Set.Subset.antisymm (fun fact shows => ?_) (linkAll_extendedBy ..).shown_subset
  cases fact with
  | present entity =>
      obtain ⟨y, denotes⟩ := shows
      exact ⟨y, (denotes_congr rfl).mp denotes⟩
  | related source other target =>
      obtain ⟨s, t, hs, ht, edge⟩ := shows
      have hs := (denotes_congr rfl).mp hs
      refine ⟨s, t, hs, (denotes_congr rfl).mp ht, edge.resolve_right ?_⟩
      rintro ⟨rfl, _⟩
      exact none source hs
  | calls net caller callee =>
      obtain ⟨s, t, hs, ht, r, own, calling, called⟩ := shows
      refine ⟨s, t, (denotes_congr rfl).mp hs, (denotes_congr rfl).mp ht, r, own, ?_, ?_⟩
      · exact calling.resolve_right fun new => plain.1 new.2.1.symm
      · exact called.resolve_right fun new => plain.2 new.2.1.symm

theorem shown_link_caller {r a : NodeId} (bare : ∀ t, ⟨r, .callees, t⟩ ∉ c.edges)
    (none : ∀ e, ¬ c.Denotes r e) : (c.link ⟨r, .caller, a⟩).shown = c.shown := by
  refine Set.Subset.antisymm (fun fact shows => ?_) (link_extendedBy _).shown_subset
  cases fact with
  | present entity =>
      obtain ⟨y, denotes⟩ := shows
      exact ⟨y, (denotes_congr rfl).mp denotes⟩
  | related source other target =>
      obtain ⟨s, t, hs, ht, edge⟩ := shows
      have hs := (denotes_congr rfl).mp hs
      refine ⟨s, t, hs, (denotes_congr rfl).mp ht, edge.resolve_left ?_⟩
      rintro ⟨⟩
      exact none source hs
  | calls net caller callee =>
      obtain ⟨s, t, hs, ht, k, own, calling, called⟩ := shows
      have called : ⟨k, .callees, t⟩ ∈ c.edges := called.resolve_left nofun
      refine ⟨s, t, (denotes_congr rfl).mp hs, (denotes_congr rfl).mp ht, k, own, ?_, called⟩
      refine calling.resolve_left ?_
      rintro ⟨⟩
      exact bare t called

theorem CallNetwork.record_kind_injective {net net' : CallNetwork}
    (same : net.record.kind = net'.record.kind) : net = net' := by
  cases net <;> cases net' <;> first | rfl | cases same

theorem shown_linkAll_callees (recorded : c.Recorded) {net : CallNetwork} {r a : NodeId}
    (own : r ∈ c.ofKind net.record.kind) (calling : ⟨r, .caller, a⟩ ∈ c.edges)
    (caller : c.Denotes a e) (ids : Set NodeId) :
    (c.linkAll r .callees ids).shown = c.shown ∪ .calls net e '' c.entities ids := by
  have same {k : NodeId} {e : Entity} : (c.linkAll r .callees ids).Denotes k e ↔ c.Denotes k e :=
    denotes_congr rfl
  refine Set.Subset.antisymm (fun fact shows => ?_)
    (Set.union_subset (linkAll_extendedBy ..).shown_subset ?_)
  · cases fact with
    | present entity =>
        obtain ⟨y, denotes⟩ := shows
        exact Or.inl ⟨y, same.mp denotes⟩
    | related source other target =>
        obtain ⟨s, t, hs, ht, edge⟩ := shows
        refine Or.inl ⟨s, t, same.mp hs, same.mp ht, edge.resolve_right ?_⟩
        rintro ⟨rfl, _⟩
        exact not_denotes own (fun e => e.kind_ne_record net) source (same.mp hs)
    | calls net' source target =>
        obtain ⟨s, t, hs, ht, k, own', calling', called⟩ := shows
        replace calling' : ⟨k, .caller, s⟩ ∈ c.edges := calling'.resolve_right nofun
        rcases called with called | ⟨rfl, _, mem⟩
        · exact Or.inl ⟨s, t, same.mp hs, same.mp ht, k, own', calling', called⟩
        · obtain rfl := recorded.callers k calling' calling
          obtain rfl := (same.mp hs).entity_unique caller
          obtain rfl := CallNetwork.record_kind_injective (ofKind_eq own' own)
          exact Or.inr ⟨target, ⟨t, mem, same.mp ht⟩, rfl⟩
  · rintro _ ⟨target, ⟨t, mem, denotes⟩, rfl⟩
    exact ⟨a, t, same.mpr caller, same.mpr denotes, r, own, Or.inl calling,
      Or.inr ⟨rfl, rfl, mem⟩⟩

end Contents

end BlastRadius
