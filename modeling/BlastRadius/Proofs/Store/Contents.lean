import BlastRadius.Node.Key
import BlastRadius.Graph.Basic
import BlastRadius.Proofs.Node.Order

/-!
What a store holds, apart from how it keeps it: the node with each identifier, the set of edges and
the set of marked nodes. Two stores that hold the same contents differ only in the identifiers that
they give to later nodes.
-/

namespace BlastRadius

/-- The schema as a list. -/
def Relation.permitted : List (Relation × NodeKind × NodeKind) :=
  [(provides, .library, .symbol), (caller, .callGraphDependency, .symbol),
    (caller, .interComponentDependency, .endpoint), (callees, .callGraphDependency, .symbol),
    (callees, .interComponentDependency, .endpoint), (specializesInto, .binding, .library),
    (specializesInto, .binding, .component), (specializesInto, .binding, .asset),
    (exposes, .endpoint, .component), (serves, .endpoint, .symbol), (hostedBy, .component, .asset),
    (composedOf, .system, .component), (threatens, .vulnerability, .symbol)]

theorem Relation.mem_permitted {relation : Relation} {a b : NodeKind}
    (h : relation.permits a b = true) : (relation, a, b) ∈ permitted := by
  unfold permits at h
  split at h <;> first | decide | exact absurd h Bool.false_ne_true

/-- The only node with a key. -/
def NodeKey.node : NodeKey → Node
  | symbol identity => .symbol identity
  | library artifact => .library artifact
  | component artifact => .component artifact
  | asset artifact => .asset artifact
  | endpoint name owner => .endpoint name owner
  | vulnerability identity => .vulnerability (some identity)
  | system name => .system name

theorem Node.eq_of_key? {node : Node} {key : NodeKey} (own : node.key? = some key) :
    node = key.node := by
  cases node with
  | vulnerability identity =>
      cases identity with
      | none => cases own
      | some text =>
          cases own
          rfl
  | _ => cases own <;> rfl

theorem NodeKey.node_key? (key : NodeKey) : key.node.key? = some key := by
  cases key <;> rfl

/-- The nodes, edges and marks of a store. -/
@[ext] structure Contents where
  node? : NodeId → Option Node
  edges : Set Edge
  marked : Set NodeId

namespace Contents

variable (c : Contents)

def live : Set NodeId := {id | ∃ node, c.node? id = some node}

def ofKind (kind : NodeKind) : Set NodeId :=
  {id | ∃ node, c.node? id = some node ∧ node.kind = kind}

def keyed (key : NodeKey) : Set NodeId :=
  {id | ∃ node, c.node? id = some node ∧ node.key? = some key}

def targets (id : NodeId) (relation : Relation) : Set NodeId :=
  {t | ⟨id, relation, t⟩ ∈ c.edges}

def sources (id : NodeId) (relation : Relation) : Set NodeId :=
  {s | ⟨s, relation, id⟩ ∈ c.edges}

/-- Edges join existing nodes as the schema permits, marks are on existing nodes, and a key belongs
to one node. -/
structure Valid : Prop where
  permitted : ∀ e ∈ c.edges, ∃ source target, c.node? e.source = some source ∧
    c.node? e.target = some target ∧ e.relation.permits source.kind target.kind
  marked_live : c.marked ⊆ c.live
  key_unique : ∀ key, (c.keyed key).Subsingleton

noncomputable def find? (key : NodeKey) : Option NodeId := (NodeId.listed (c.keyed key)).head?

open Classical in
noncomputable def isMarked (id : NodeId) : Bool := decide (id ∈ c.marked)

open Classical in
noncomputable def lacks (e : Edge) : Bool := decide (e ∉ c.edges)

def empty : Contents := ⟨fun _ => none, ∅, ∅⟩

def insert (id : NodeId) (node : Node) : Contents :=
  { c with node? := fun other => if other = id then some node else c.node? other }

def link (e : Edge) : Contents := { c with edges := Set.insert e c.edges }

def mark (ids : Set NodeId) : Contents := { c with marked := c.marked ∪ ids }

def unmarked : Contents := { c with marked := ∅ }

/-- The contents without the nodes of a kind and their edges. -/
def without (kind : NodeKind) : Contents where
  node? id := (c.node? id).filter fun node => !(node.kind == kind)
  edges := {e ∈ c.edges | e.source ∉ c.ofKind kind ∧ e.target ∉ c.ofKind kind}
  marked := c.marked \ c.ofKind kind

variable {c}

theorem mem_live {id : NodeId} {node : Node} (h : c.node? id = some node) : id ∈ c.live :=
  ⟨node, h⟩

theorem not_mem_live {id : NodeId} : id ∉ c.live ↔ c.node? id = none := by
  simp [live, Option.eq_none_iff_forall_ne_some]

theorem ofKind_subset_live (kind : NodeKind) : c.ofKind kind ⊆ c.live :=
  fun _ ⟨node, h, _⟩ => ⟨node, h⟩

theorem mem_ofKind {id : NodeId} {node : Node} (h : c.node? id = some node) {kind : NodeKind} :
    id ∈ c.ofKind kind ↔ node.kind = kind := by
  simp [ofKind, h]

theorem ofKind_eq {id : NodeId} {a b : NodeKind} (ha : id ∈ c.ofKind a) (hb : id ∈ c.ofKind b) :
    a = b := by
  obtain ⟨node, hnode, rfl⟩ := ha
  exact (mem_ofKind hnode).mp hb

@[simp] theorem mem_targets {id t : NodeId} {relation : Relation} :
    t ∈ c.targets id relation ↔ ⟨id, relation, t⟩ ∈ c.edges := Iff.rfl

@[simp] theorem mem_sources {id s : NodeId} {relation : Relation} :
    s ∈ c.sources id relation ↔ ⟨s, relation, id⟩ ∈ c.edges := Iff.rfl

@[simp] theorem isMarked_eq_true {id : NodeId} : c.isMarked id = true ↔ id ∈ c.marked := by
  simp [isMarked]

@[simp] theorem lacks_eq_true {e : Edge} : c.lacks e = true ↔ e ∉ c.edges := by
  simp [lacks]

theorem link_of_mem {e : Edge} (h : e ∈ c.edges) : c.link e = c := by
  simp only [link, Set.insert]
  refine Contents.ext rfl (Set.ext fun f => ?_) rfl
  constructor
  · rintro (rfl | mem)
    · exact h
    · exact mem
  · exact Or.inr

theorem find?_eq_none {key : NodeKey} : c.find? key = none ↔ c.keyed key = ∅ := by
  rw [find?, List.head?_eq_none_iff, NodeId.listed_eq_nil]

theorem mem_keyed {id : NodeId} {key : NodeKey} :
    id ∈ c.keyed key ↔ c.node? id = some key.node := by
  constructor
  · rintro ⟨node, found, own⟩
    rw [found, Node.eq_of_key? own]
  · exact fun found => ⟨key.node, found, key.node_key?⟩

theorem insert_node?_self (id : NodeId) (node : Node) :
    (c.insert id node).node? id = some node := by
  simp [insert]

theorem insert_node?_of_ne {id other : NodeId} (node : Node) (h : other ≠ id) :
    (c.insert id node).node? other = c.node? other := by
  simp [insert, h]

theorem insert_node?_of_some {id other : NodeId} {node existing : Node} (fresh : c.node? id = none)
    (h : c.node? other = some existing) : (c.insert id node).node? other = some existing := by
  rw [insert_node?_of_ne node, h]
  rintro rfl
  simp [fresh] at h

theorem mem_keyed_insert {id other : NodeId} {node : Node} (fresh : c.node? id = none)
    {key : NodeKey} :
    other ∈ (c.insert id node).keyed key ↔
      other ∈ c.keyed key ∨ other = id ∧ node.key? = some key := by
  by_cases h : other = id
  · subst h
    simp [keyed, insert_node?_self, fresh]
  · simp [keyed, insert_node?_of_ne node h, h]

theorem mem_ofKind_insert {id other : NodeId} {node : Node} (fresh : c.node? id = none)
    {kind : NodeKind} : other ∈ (c.insert id node).ofKind kind ↔
      other ∈ c.ofKind kind ∨ other = id ∧ node.kind = kind := by
  by_cases h : other = id
  · subst h
    simp [ofKind, insert_node?_self, fresh]
  · simp [ofKind, insert_node?_of_ne node h, h]

theorem live_insert (id : NodeId) (node : Node) :
    (c.insert id node).live = Set.insert id c.live := by
  ext other
  by_cases h : other = id <;> simp [live, insert, h, Set.insert]

@[simp] theorem mark_empty : c.mark ∅ = c := by
  simp [mark]

@[simp] theorem mark_mark (a b : Set NodeId) : (c.mark a).mark b = c.mark (a ∪ b) := by
  simp [mark, Set.union_assoc]

@[simp] theorem mark_node? (ids : Set NodeId) : (c.mark ids).node? = c.node? := rfl

@[simp] theorem mark_edges (ids : Set NodeId) : (c.mark ids).edges = c.edges := rfl

@[simp] theorem mark_marked (ids : Set NodeId) : (c.mark ids).marked = c.marked ∪ ids := rfl

@[simp] theorem mark_live (ids : Set NodeId) : (c.mark ids).live = c.live := rfl

@[simp] theorem mark_ofKind (ids : Set NodeId) (kind : NodeKind) :
    (c.mark ids).ofKind kind = c.ofKind kind := rfl

@[simp] theorem mark_targets (ids : Set NodeId) (id : NodeId) (relation : Relation) :
    (c.mark ids).targets id relation = c.targets id relation := rfl

@[simp] theorem mark_sources (ids : Set NodeId) (id : NodeId) (relation : Relation) :
    (c.mark ids).sources id relation = c.sources id relation := rfl

theorem without_node?_eq_some {id : NodeId} {node : Node} {kind : NodeKind} :
    (c.without kind).node? id = some node ↔ c.node? id = some node ∧ node.kind ≠ kind := by
  simp [without, Option.filter_eq_some_iff]

theorem without_node? {id : NodeId} {node : Node} {kind : NodeKind} (found : c.node? id = some node)
    (other : node.kind ≠ kind) : (c.without kind).node? id = some node :=
  without_node?_eq_some.mpr ⟨found, other⟩

namespace Valid

variable (valid : c.Valid)
include valid

theorem kinds {s t : NodeId} {relation : Relation} (h : ⟨s, relation, t⟩ ∈ c.edges) :
    ∃ a b, s ∈ c.ofKind a ∧ t ∈ c.ofKind b ∧ (relation, a, b) ∈ Relation.permitted := by
  obtain ⟨source, target, hs, ht, permitted⟩ := valid.permitted _ h
  exact ⟨source.kind, target.kind, ⟨source, hs, rfl⟩, ⟨target, ht, rfl⟩,
    Relation.mem_permitted permitted⟩

theorem source_kind {relation : Relation} {kind : NodeKind}
    (schema : ∀ p ∈ Relation.permitted, p.1 = relation → p.2.1 = kind) {s t : NodeId}
    (h : ⟨s, relation, t⟩ ∈ c.edges) : s ∈ c.ofKind kind := by
  obtain ⟨a, b, hs, _, permitted⟩ := valid.kinds h
  exact schema _ permitted rfl ▸ hs

theorem target_kind {relation : Relation} {kind : NodeKind}
    (schema : ∀ p ∈ Relation.permitted, p.1 = relation → p.2.2 = kind) {s t : NodeId}
    (h : ⟨s, relation, t⟩ ∈ c.edges) : t ∈ c.ofKind kind := by
  obtain ⟨a, b, _, ht, permitted⟩ := valid.kinds h
  exact schema _ permitted rfl ▸ ht

theorem source_live {s t : NodeId} {relation : Relation} (h : ⟨s, relation, t⟩ ∈ c.edges) :
    s ∈ c.live := by
  obtain ⟨source, _, hs, _⟩ := valid.permitted _ h
  exact ⟨source, hs⟩

theorem target_live {s t : NodeId} {relation : Relation} (h : ⟨s, relation, t⟩ ∈ c.edges) :
    t ∈ c.live := by
  obtain ⟨_, target, _, ht, _⟩ := valid.permitted _ h
  exact ⟨target, ht⟩

theorem find?_eq_some {key : NodeKey} {id : NodeId} :
    c.find? key = some id ↔ id ∈ c.keyed key := by
  rw [find?]
  constructor
  · intro h
    exact NodeId.mem_listed.mp (List.mem_of_mem_head? h)
  · intro h
    cases first : (NodeId.listed (c.keyed key)).head? with
    | none =>
        rw [List.head?_eq_none_iff, NodeId.listed_eq_nil] at first
        exact absurd h (first ▸ Set.notMem_empty id)
    | some other =>
        rw [valid.key_unique key (NodeId.mem_listed.mp (List.mem_of_mem_head? first)) h]

theorem insert {id : NodeId} {node : Node} (fresh : c.node? id = none)
    (free : ∀ key, node.key? = some key → c.keyed key = ∅) : (c.insert id node).Valid where
  permitted e mem := by
    obtain ⟨source, target, hs, ht, permitted⟩ := valid.permitted e mem
    exact ⟨source, target, insert_node?_of_some fresh hs, insert_node?_of_some fresh ht,
      permitted⟩
  marked_live := by
    rw [live_insert]
    exact valid.marked_live.trans (Set.subset_insert id c.live)
  key_unique key a ha b hb := by
    rw [mem_keyed_insert fresh] at ha hb
    rcases ha with ha | ⟨rfl, hkey⟩ <;> rcases hb with hb | ⟨rfl, hkey'⟩
    · exact valid.key_unique key ha hb
    · exact absurd ha (free key hkey' ▸ Set.notMem_empty a)
    · exact absurd hb (free key hkey ▸ Set.notMem_empty b)
    · rfl

theorem link {e : Edge} {source target : Node} (hs : c.node? e.source = some source)
    (ht : c.node? e.target = some target) (permitted : e.relation.permits source.kind target.kind) :
    (c.link e).Valid where
  permitted f mem := by
    rcases mem with rfl | mem
    · exact ⟨source, target, hs, ht, permitted⟩
    · exact valid.permitted f mem
  marked_live := valid.marked_live
  key_unique := valid.key_unique

theorem mark {ids : Set NodeId} (existing : ids ⊆ c.live) : (c.mark ids).Valid where
  permitted := valid.permitted
  marked_live := Set.union_subset valid.marked_live existing
  key_unique := valid.key_unique

theorem unmarked : c.unmarked.Valid where
  permitted := valid.permitted
  marked_live := Set.empty_subset _
  key_unique := valid.key_unique

theorem without (kind : NodeKind) : (c.without kind).Valid where
  permitted e mem := by
    obtain ⟨mem, hs, ht⟩ := mem
    obtain ⟨source, target, hsource, htarget, permitted⟩ := valid.permitted e mem
    rw [mem_ofKind hsource] at hs
    rw [mem_ofKind htarget] at ht
    exact ⟨source, target, without_node? hsource hs, without_node? htarget ht, permitted⟩
  marked_live id mem := by
    obtain ⟨node, found⟩ := valid.marked_live mem.1
    have other := mem.2
    rw [mem_ofKind found] at other
    exact ⟨node, without_node? found other⟩
  key_unique key := (valid.key_unique key).anti fun _ ⟨node, found, hkey⟩ =>
    ⟨node, (without_node?_eq_some.mp found).1, hkey⟩

end Valid

theorem empty_valid : empty.Valid where
  permitted _ mem := absurd mem (Set.notMem_empty _)
  marked_live := Set.empty_subset _
  key_unique _ _ := fun ⟨_, found, _⟩ => by simp [empty] at found

end Contents

end BlastRadius
