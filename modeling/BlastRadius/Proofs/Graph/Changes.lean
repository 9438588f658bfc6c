import BlastRadius.Proofs.Graph.Valid

/-!
Insertion and removal of nodes and edges: what they do to the contents of a valid graph, which stays
valid.
-/

namespace BlastRadius.DependencyGraph

variable {g : DependencyGraph}

theorem rank_injective : Function.Injective Relation.rank := by
  intro a b h
  cases a <;> cases b <;> first | rfl | exact absurd h (by decide)

theorem before_iff (a b : Edge) : a.before b = true ↔
    a.place Relation.rank < b.place Relation.rank := by
  rw [Edge.place_lt, Edge.before]
  simp only [Bool.or_eq_true, Bool.and_eq_true, decide_eq_true_eq, beq_iff_eq,
    rank_injective.eq_iff]

theorem linked_eq (e : Edge) (edges : List Edge) : linked e edges =
    edges.orderedInsert (fun a b => a.place Relation.rank ≤ b.place Relation.rank) e := by
  induction edges with
  | nil => rfl
  | cons f rest ih =>
      rw [linked, List.orderedInsert_cons, ih]
      by_cases h : f.before e = true
      · rw [if_pos h, if_neg (not_le.mpr ((before_iff f e).mp h))]
      · rw [if_neg h, if_pos (not_lt.mp fun lt => h ((before_iff f e).mpr lt))]

theorem contents_linked (e : Edge) :
    contents { g with edges := linked e g.edges } = g.contents.link e := by
  refine Contents.ext rfl (Set.ext fun f => ?_) rfl
  rw [linked_eq]
  exact List.mem_orderedInsert _

theorem Valid.linked (valid : g.Valid) {e : Edge} {source target : Node}
    (hs : g.contents.node? e.source = some source) (ht : g.contents.node? e.target = some target)
    (permitted : e.relation.permits source.kind target.kind) (fresh : e ∉ g.edges) :
    Valid { g with edges := DependencyGraph.linked e g.edges } where
  ascending := valid.ascending
  ordered := by
    rw [linked_eq]
    exact valid.ordered.orderedInsert rank_injective fresh
  contents := by
    rw [contents_linked]
    exact valid.contents.link hs ht permitted
  index := valid.index
  free_nodup := valid.free_nodup
  unused := valid.unused
  below := valid.below

theorem addEdge_eq (valid : g.Valid) {e : Edge} {source target : Node}
    (hs : g.contents.node? e.source = some source) (ht : g.contents.node? e.target = some target)
    (permitted : e.relation.permits source.kind target.kind) :
    ∃ g', g.addEdge e = .ok (g.contents.lacks e, g') ∧ g'.Valid ∧
      g'.contents = g.contents.link e ∧ g'.next = g.next := by
  have found : g.addEdge e =
      if g.edges.contains e then .ok (false, g)
      else .ok (true, { g with edges := linked e g.edges }) := by
    rw [addEdge, node_eq, node_eq, hs, ht]
    change (e.relation.check source.kind target.kind >>= fun _ => _) = _
    rw [Relation.check, if_pos permitted]
    rfl
  rw [found]
  by_cases mem : e ∈ g.edges
  · have known : g.contents.lacks e = false := by
      rw [Bool.eq_false_iff, Ne, Contents.lacks_eq_true, not_not]
      exact mem
    rw [if_pos (List.contains_iff_mem.mpr mem), known]
    exact ⟨g, rfl, valid, (Contents.link_of_mem mem).symm, rfl⟩
  · rw [if_neg (fun h => mem (List.contains_iff_mem.mp h)), Contents.lacks_eq_true.mpr mem]
    exact ⟨_, rfl, valid.linked hs ht permitted mem, contents_linked e, rfl⟩

/-- There is an identifier for one more node. -/
def HasRoom (g : DependencyGraph) : Prop := g.free = [] → g.next < NodeId.count

theorem nextId_fresh (valid : g.Valid) (room : g.HasRoom) : g.contents.node? g.nextId = none := by
  rw [← Contents.not_mem_live]
  intro live
  cases h : g.free with
  | nil =>
      have lt := valid.below _ live
      rw [nextId, h, List.headD_nil, NodeId.toNat_ofNat (room h)] at lt
      exact Nat.lt_irrefl _ lt
  | cons id rest =>
      rw [nextId, h, List.headD_cons] at live
      exact (valid.unused id (h ▸ List.mem_cons_self)).2 live

theorem enterKey_eq (valid : g.Valid) (id : NodeId) {node : Node}
    (free : ∀ key, node.key? = some key → g.contents.keyed key = ∅) :
    g.enterKey id node =
      .ok ((node.key?.map fun key => (key.canonical, id)).toList ++ g.index) := by
  cases h : node.key? with
  | none => simp [enterKey, h]
  | some key =>
      have absent : g.index.lookup key.canonical = none := by
        rw [Option.eq_none_iff_forall_ne_some]
        intro other found
        obtain ⟨key', mem, text⟩ := (valid.index _ _).mp found
        rw [NodeKey.canonical_injective text, free key h] at mem
        exact mem
      simp [enterKey, h, absent]

theorem addNode_taken (valid : g.Valid) {node : Node} {key : NodeKey} (hkey : node.key? = some key)
    (taken : (g.contents.keyed key).Nonempty) :
    g.addNode node = .error (.duplicateKey key.canonical) := by
  obtain ⟨id, mem⟩ := taken
  have found := (valid.index key.canonical id).mpr ⟨key, mem, rfl⟩
  simp [addNode, enterKey, hkey, found]
  rfl

theorem lookup_entered (valid : g.Valid) {id : NodeId} {node : Node}
    (fresh : g.contents.node? id = none)
    (free : ∀ key, node.key? = some key → g.contents.keyed key = ∅) (text : String)
    (other : NodeId) :
    ((node.key?.map fun key => (key.canonical, id)).toList ++ g.index).lookup text = some other ↔
      ∃ key, other ∈ (g.contents.insert id node).keyed key ∧ key.canonical = text := by
  simp only [Contents.mem_keyed_insert fresh]
  cases h : node.key? with
  | none => simp [valid.index]
  | some key =>
      simp only [Option.map_some, Option.toList_some, List.cons_append, List.nil_append,
        List.lookup_cons, Option.some.injEq]
      by_cases same : text = key.canonical
      · subst same
        simp only [beq_self_eq_true, Option.some.injEq]
        constructor
        · rintro rfl
          exact ⟨key, Or.inr ⟨rfl, rfl⟩, rfl⟩
        · rintro ⟨key', mem, text⟩
          obtain rfl := NodeKey.canonical_injective text
          rcases mem with mem | ⟨rfl, _⟩
          · exact absurd mem (free key' h ▸ Set.notMem_empty other)
          · rfl
      · simp only [beq_eq_false_iff_ne.mpr same, valid.index]
        refine exists_congr fun key' => and_congr_left fun text => ⟨Or.inl, ?_⟩
        rintro (mem | ⟨_, rfl⟩)
        · exact mem
        · exact absurd text.symm same

theorem Valid.insert (valid : g.Valid) {id : NodeId} {node : Node} (free : List NodeId) {next : Nat}
    (fresh : g.contents.node? id = none)
    (unkeyed : ∀ key, node.key? = some key → g.contents.keyed key = ∅)
    (nodup : free.Nodup)
    (unused : ∀ other ∈ free, other.toNat < next ∧ other ∉ g.contents.live ∧ other ≠ id)
    (le : g.next ≤ next) (lt : id.toNat < next) :
    Valid { g with
      nodes := placed id { node := node } g.nodes
      index := (node.key?.map fun key => (key.canonical, id)).toList ++ g.index
      free := free
      next := next } := by
  have absent : g.nodes.lookup id = none := Option.map_eq_none_iff.mp fresh
  have holds : Entries.contents (placed id { node := node } g.nodes) g.edges =
      g.contents.insert id node := Entries.contents_placed absent
  refine ⟨Entries.placed_ascending valid.ascending _ absent, valid.ordered, ?_, ?_,
    nodup, ?_, ?_⟩
  · rw [DependencyGraph.contents, holds]
    exact valid.contents.insert fresh unkeyed
  · rw [DependencyGraph.contents, holds]
    exact lookup_entered valid fresh unkeyed
  · intro other mem
    obtain ⟨below, dead, ne⟩ := unused other mem
    rw [DependencyGraph.contents, holds, Contents.live_insert]
    refine ⟨below, ?_⟩
    rintro (rfl | live)
    · exact ne rfl
    · exact dead live
  · intro other mem
    rw [DependencyGraph.contents, holds, Contents.live_insert] at mem
    rcases mem with rfl | live
    · exact lt
    · exact (valid.below other live).trans_le le

/-- A node whose key is not taken is added under an identifier that was not in use. -/
theorem addNode_eq (valid : g.Valid) (room : g.HasRoom) {node : Node}
    (unkeyed : ∀ key, node.key? = some key → g.contents.keyed key = ∅) :
    ∃ g', g.addNode node = .ok (g.nextId, g') ∧ g'.Valid ∧
      g'.contents = g.contents.insert g.nextId node ∧ g'.next ≤ g.next + 1 := by
  have fresh := nextId_fresh valid room
  have absent : g.nodes.lookup g.nextId = none := Option.map_eq_none_iff.mp fresh
  have holds : Entries.contents (placed g.nextId { node := node } g.nodes) g.edges =
      g.contents.insert g.nextId node := Entries.contents_placed absent
  cases h : g.free with
  | nil =>
      have id : g.nextId = NodeId.ofNat g.next := by rw [nextId, h, List.headD_nil]
      refine ⟨_, ?_, valid.insert [] fresh unkeyed List.nodup_nil
        (fun other mem => absurd mem List.not_mem_nil) (Nat.le_succ g.next) ?_, holds, le_rfl⟩
      · rw [addNode, enterKey_eq valid _ unkeyed]
        simp only [h]
        rfl
      · rw [id, NodeId.toNat_ofNat (room h)]
        exact Nat.lt_succ_self g.next
  | cons id rest =>
      have head : g.nextId = id := by rw [nextId, h, List.headD_cons]
      have nodup := h ▸ valid.free_nodup
      refine ⟨_, ?_, valid.insert rest fresh unkeyed (List.nodup_cons.mp nodup).2
        (fun other mem => ?_) (le_refl g.next) ?_, holds, Nat.le_succ g.next⟩
      · rw [addNode, enterKey_eq valid _ unkeyed]
        simp only [h]
        rfl
      · obtain ⟨below, dead⟩ := valid.unused other (h ▸ List.mem_cons_of_mem id mem)
        refine ⟨below, dead, ?_⟩
        rintro rfl
        exact (List.nodup_cons.mp nodup).1 (head ▸ mem)
      · exact head ▸ (valid.unused id (h ▸ List.mem_cons_self)).1

theorem removed_ids (valid : g.Valid) (kind : NodeKind) (id : NodeId) :
    id ∈ g.nodesOfKind kind ↔ id ∈ g.contents.ofKind kind := by
  rw [nodesOfKind_eq valid, NodeId.mem_listed]

theorem contents_removeKind (valid : g.Valid) (kind : NodeKind) :
    (g.removeKind kind).2.contents = g.contents.without kind := by
  rw [contents, contents, ← Entries.contents_without valid.ascending]
  rfl

theorem mem_removed_keys (valid : g.Valid) (kind : NodeKind) (text : String) :
    (text ∈ g.nodes.filterMap fun entry =>
      if entry.2.node.kind == kind then entry.2.node.key?.map NodeKey.canonical else none) ↔
      ∃ key id, id ∈ g.contents.keyed key ∧ id ∈ g.contents.ofKind kind ∧
        key.canonical = text := by
  simp only [List.mem_filterMap, Prod.exists, ← Entries.lookup_eq_some valid.ascending]
  constructor
  · rintro ⟨id, record, found, h⟩
    split at h
    · rename_i same
      obtain ⟨key, hkey, text⟩ := Option.map_eq_some_iff.mp h
      have node : g.contents.node? id = some record.node := by simp [contents, found]
      exact ⟨key, id, ⟨_, node, hkey⟩, ⟨_, node, by simpa using same⟩, text⟩
    · exact absurd h (by simp)
  · rintro ⟨key, id, ⟨node, found, hkey⟩, ofKind, rfl⟩
    rw [Contents.mem_ofKind found] at ofKind
    obtain ⟨record, entered, rfl⟩ := Option.map_eq_some_iff.mp found
    exact ⟨id, record, entered, by simp [ofKind, hkey]⟩

theorem lookup_filter_key (index : List (String × NodeId)) (keys : List String) (text : String) :
    (index.filter fun entry => !keys.contains entry.1).lookup text =
      if text ∈ keys then none else index.lookup text := by
  induction index with
  | nil => simp
  | cons entry rest ih =>
      rw [List.filter_cons]
      by_cases same : text = entry.1
      · subst same
        by_cases mem : entry.1 ∈ keys
        · simpa only [mem, List.contains_iff_mem.mpr mem, Bool.not_true, Bool.false_eq_true,
            ↓reduceIte] using ih
        · have kept : keys.contains entry.1 = false := by simpa using mem
          simp only [mem, kept, Bool.not_false, ↓reduceIte]
          rw [List.lookup_cons, List.lookup_cons, beq_self_eq_true]
      · have ne : (text == entry.1) = false := beq_eq_false_iff_ne.mpr same
        split
        · rw [List.lookup_cons, List.lookup_cons, ne]
          exact ih
        · rw [List.lookup_cons, ne]
          exact ih

theorem Valid.removeKind (valid : g.Valid) (kind : NodeKind) : (g.removeKind kind).2.Valid := by
  have holds := contents_removeKind valid kind
  refine ⟨Entries.filter_ascending valid.ascending _, valid.ordered.sublist List.filter_sublist,
    ?_, ?_, ?_, ?_, ?_⟩
  · rw [holds]
    exact valid.contents.without kind
  · intro text id
    rw [holds]
    change List.lookup text (g.index.filter _) = some id ↔ _
    rw [lookup_filter_key]
    split
    · rename_i gone
      rw [mem_removed_keys valid] at gone
      obtain ⟨key, other, keyed, ofKind, rfl⟩ := gone
      refine ⟨fun h => absurd h (by simp), ?_⟩
      rintro ⟨key', ⟨node, found, hkey⟩, text⟩
      obtain rfl := NodeKey.canonical_injective text
      obtain ⟨found, ne⟩ := Contents.without_node?_eq_some.mp found
      obtain rfl := valid.contents.key_unique _ keyed ⟨node, found, hkey⟩
      exact absurd ((Contents.mem_ofKind found).mp ofKind) ne
    · rename_i kept
      rw [mem_removed_keys valid] at kept
      rw [valid.index]
      refine exists_congr fun key => and_congr_left fun text => ⟨fun keyed => ?_, ?_⟩
      · obtain ⟨node, found, hkey⟩ := keyed
        refine ⟨node, Contents.without_node? found fun same => kept ?_, hkey⟩
        exact ⟨key, id, ⟨node, found, hkey⟩, ⟨node, found, same⟩, text⟩
      · rintro ⟨node, found, hkey⟩
        exact ⟨node, (Contents.without_node?_eq_some.mp found).1, hkey⟩
  · change ((g.nodesOfKind kind).reverse ++ g.free).Nodup
    rw [List.nodup_append']
    refine ⟨?_, valid.free_nodup, fun id mem free => ?_⟩
    · rw [List.nodup_reverse, nodesOfKind_eq valid]
      exact NodeId.listed_nodup _
    · rw [List.mem_reverse, removed_ids valid] at mem
      exact (valid.unused id free).2 (Contents.ofKind_subset_live kind mem)
  · intro id mem
    rw [holds]
    rcases List.mem_append.mp mem with mem | mem
    · rw [List.mem_reverse, removed_ids valid] at mem
      refine ⟨valid.below id (Contents.ofKind_subset_live kind mem), ?_⟩
      rintro ⟨node, found⟩
      obtain ⟨found, ne⟩ := Contents.without_node?_eq_some.mp found
      exact ne ((Contents.mem_ofKind found).mp mem)
    · obtain ⟨below, dead⟩ := valid.unused id mem
      exact ⟨below, fun ⟨node, found⟩ =>
        dead ⟨node, (Contents.without_node?_eq_some.mp found).1⟩⟩
  · rw [holds]
    rintro id ⟨node, found⟩
    exact valid.below id ⟨node, (Contents.without_node?_eq_some.mp found).1⟩

theorem removeKind_count (valid : g.Valid) (kind : NodeKind) :
    (g.removeKind kind).1 = (g.contents.ofKind kind).ncard := by
  change (g.nodesOfKind kind).length = _
  rw [nodesOfKind_eq valid, NodeId.length_listed]

end BlastRadius.DependencyGraph
