import BlastRadius.Proofs.Graph.EdgeOrder
import BlastRadius.Proofs.Graph.Entries
import BlastRadius.Proofs.Node.KeyText

/-!
The invariant of a dependency graph, and what each operation on a graph does to its contents.
-/

namespace BlastRadius.DependencyGraph

def contents (g : DependencyGraph) : Contents := Entries.contents g.nodes g.edges

/-- The nodes and edges are listed in order and obey the schema, the index has exactly the keys of
the nodes, and an identifier that a new node may take is not in use. -/
structure Valid (g : DependencyGraph) : Prop where
  ascending : Entries.Ascending g.nodes
  ordered : Edge.Ordered Relation.rank g.edges
  contents : g.contents.Valid
  index : ∀ text id, g.index.lookup text = some id ↔
    ∃ key, id ∈ g.contents.keyed key ∧ key.canonical = text
  free_nodup : g.free.Nodup
  unused : ∀ id ∈ g.free, id.toNat < g.next ∧ id ∉ g.contents.live
  below : ∀ id ∈ g.contents.live, id.toNat < g.next

variable {g : DependencyGraph}

theorem contents_empty : empty.contents = Contents.empty := by
  refine Contents.ext rfl ?_ ?_ <;> ext <;> simp [empty, contents, Entries.contents, Contents.empty]

theorem empty_valid : Valid empty where
  ascending := List.Pairwise.nil
  ordered := List.Pairwise.nil
  contents := contents_empty ▸ Contents.empty_valid
  index text id := by
    constructor
    · intro h
      simp [empty] at h
    · rintro ⟨_, ⟨_, found, _⟩, _⟩
      simp [empty, DependencyGraph.contents] at found
  free_nodup := List.nodup_nil
  unused _ mem := absurd mem List.not_mem_nil
  below _ mem := by
    obtain ⟨_, found⟩ := mem
    simp [empty, DependencyGraph.contents] at found

theorem node_eq (id : NodeId) : g.node id =
    match g.contents.node? id with
    | some node => .ok node
    | none => .error (.nodeNotFound id) := by
  cases h : g.nodes.lookup id <;> simp [node, record, record?, contents, h]

theorem contains_iff (id : NodeId) : g.contains id = true ↔ id ∈ g.contents.live :=
  Entries.mem_contents_live.symm

theorem isMarked_eq (id : NodeId) : g.isMarked id =
    match g.contents.node? id with
    | some _ => .ok (g.contents.isMarked id)
    | none => .error (.nodeNotFound id) := by
  cases h : g.nodes.lookup id with
  | none => simp [isMarked, record, record?, contents, h]
  | some found =>
      have same : g.contents.isMarked id = found.marked := by
        rw [Bool.eq_iff_iff, Contents.isMarked_eq_true]
        simp [contents, Entries.mem_contents_marked, h]
      rw [same]
      simp [isMarked, record, record?, contents, h]

theorem nodesOfKind_eq (valid : g.Valid) (kind : NodeKind) :
    g.nodesOfKind kind = NodeId.listed (g.contents.ofKind kind) := by
  rw [nodesOfKind, idsWhere, Entries.map_fst_filter valid.ascending]
  congr 1
  ext id
  simp [contents, Entries.mem_contents_ofKind]

theorem markedOfKind_eq (valid : g.Valid) (kind : NodeKind) :
    g.markedOfKind kind = NodeId.listed (g.contents.marked ∩ g.contents.ofKind kind) := by
  rw [markedOfKind, idsWhere, Entries.map_fst_filter valid.ascending]
  congr 1
  ext id
  cases h : g.nodes.lookup id <;>
    simp [contents, Entries.mem_contents_ofKind, Entries.mem_contents_marked, h]

theorem targets_eq (valid : g.Valid) (id : NodeId) (relation : Relation) :
    g.targets id relation =
      match g.contents.node? id with
      | some _ => .ok (NodeId.listed (g.contents.targets id relation))
      | none => .error (.nodeNotFound id) := by
  have listed := valid.ordered.targets id relation
  cases h : g.nodes.lookup id <;>
    simp [targets, record, record?, contents, h, listed, Contents.targets]

theorem sources_eq (valid : g.Valid) (id : NodeId) (relation : Relation) :
    g.sources id relation =
      match g.contents.node? id with
      | some _ => .ok (NodeId.listed (g.contents.sources id relation))
      | none => .error (.nodeNotFound id) := by
  have listed := valid.ordered.sources id relation
  cases h : g.nodes.lookup id <;>
    simp [sources, record, record?, contents, h, listed, Contents.sources]

theorem find?_eq (valid : g.Valid) (key : NodeKey) : g.find? key = g.contents.find? key := by
  ext id
  rw [valid.contents.find?_eq_some, find?, valid.index]
  constructor
  · rintro ⟨other, mem, text⟩
    exact NodeKey.canonical_injective text ▸ mem
  · exact fun mem => ⟨key, mem, rfl⟩

theorem Valid.remark (valid : g.Valid) {nodes : List (NodeId × NodeRecord)}
    (ascending : Entries.Ascending nodes)
    (same : ({ g with nodes := nodes } : DependencyGraph).contents.node? = g.contents.node?) :
    Valid { g with nodes := nodes } := by
  have keyed (key : NodeKey) : ({ g with nodes := nodes } : DependencyGraph).contents.keyed key =
      g.contents.keyed key := by rw [Contents.keyed, same, Contents.keyed]
  have live : ({ g with nodes := nodes } : DependencyGraph).contents.live = g.contents.live := by
    rw [Contents.live, same, Contents.live]
  refine ⟨ascending, valid.ordered, ⟨fun e mem =>
    ?_, Entries.contents_marked_live, fun key => ?_⟩,
    fun text id => ?_, valid.free_nodup, ?_, ?_⟩
  · rw [same]
    exact valid.contents.permitted e mem
  · rw [keyed]
    exact valid.contents.key_unique key
  · simp only [keyed]
    exact valid.index text id
  · rw [live]
    exact valid.unused
  · rw [live]
    exact valid.below

theorem setMarks_eq (valid : g.Valid) {ids : List NodeId}
    (existing : ∀ id ∈ ids, id ∈ g.contents.live) :
    g.setMarks ids = .ok (({id | id ∈ ids} \ g.contents.marked).ncard,
      { g with nodes := g.nodes.map (Entries.markListed ids) }) := by
  have none : ids.find? (fun id => !g.contains id) = none := by
    simpa [List.find?_eq_none, contains_iff] using existing
  rw [setMarks, none]
  exact congrArg (fun n => Except.ok (n, _)) (Entries.length_newly valid.ascending existing)

theorem setMarks_eq_error {ids : List NodeId} {missing : NodeId}
    (h : ids.find? (fun id => !g.contains id) = some missing) :
    g.setMarks ids = .error (.nodeNotFound missing) := by
  rw [setMarks, h]

theorem contents_setMarks {ids : List NodeId} (existing : ∀ id ∈ ids, id ∈ g.contents.live) :
    contents { g with nodes := g.nodes.map (Entries.markListed ids) } =
      g.contents.mark {id | id ∈ ids} :=
  Entries.contents_mark existing

theorem Valid.setMarks (valid : g.Valid) {ids : List NodeId}
    (existing : ∀ id ∈ ids, id ∈ g.contents.live) :
    Valid { g with nodes := g.nodes.map (Entries.markListed ids) } :=
  valid.remark (Entries.map_ascending valid.ascending (Entries.markListed_fst ids))
    (by rw [contents_setMarks existing, Contents.mark_node?])

theorem clearMarks_eq (valid : g.Valid) : g.clearMarks =
    (g.contents.marked.ncard, { g with nodes := g.nodes.map Entries.unmark }) :=
  congrArg (fun n => (n, _)) (Entries.length_marked valid.ascending)

theorem contents_clearMarks :
    contents { g with nodes := g.nodes.map Entries.unmark } = g.contents.unmarked :=
  Entries.contents_unmarked

theorem Valid.clearMarks (valid : g.Valid) : Valid { g with nodes := g.nodes.map Entries.unmark } :=
  valid.remark (Entries.map_ascending valid.ascending fun _ => rfl)
    (by rw [contents_clearMarks, Contents.unmarked])

end BlastRadius.DependencyGraph
