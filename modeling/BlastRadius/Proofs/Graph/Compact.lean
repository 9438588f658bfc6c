import BlastRadius.Proofs.Graph.Coherence

/-!
Graphs from which nothing was removed. Their nodes are numbered from zero on, in the order in which
they came, and they are what is built from their own records and edges.
-/

namespace BlastRadius

/-- The keys of records and their identifiers, as an index to which the records were
added one after the other. -/
def Entries.keyIndex (entries : Entries) : List (String × NodeId) :=
  (entries.filterMap fun entry => entry.2.node.key?.map fun key => (key.canonical, entry.1)).reverse

theorem Entries.keyIndex_append (entries later : Entries) :
    keyIndex (entries ++ later) = keyIndex later ++ keyIndex entries := by
  rw [keyIndex, List.filterMap_append, List.reverse_append]
  rfl

theorem Entries.keyIndex_singleton (id : NodeId) (record : NodeRecord) :
    keyIndex [(id, record)] = (record.node.key?.map fun key => (key.canonical, id)).toList := by
  rw [keyIndex]
  cases h : record.node.key? <;> simp [h]

theorem Entries.keyIndex_map {entries : Entries} {f : NodeId × NodeRecord → NodeId × NodeRecord}
    (same : ∀ entry, (f entry).1 = entry.1 ∧ (f entry).2.node = entry.2.node) :
    keyIndex (entries.map f) = keyIndex entries := by
  rw [keyIndex, List.filterMap_map, keyIndex]
  congr 2
  funext entry
  simp [same entry]

namespace DependencyGraph

variable {g g' : DependencyGraph}

/-- A valid graph whose nodes are numbered from zero on and indexed in this order. -/
structure Compact (g : DependencyGraph) : Prop extends g.Valid where
  free : g.free = []
  numbered : g.nodes.map (fun entry => entry.1.toNat) = List.range g.next
  indexed : g.index = Entries.keyIndex g.nodes

theorem empty_compact : Compact empty where
  toValid := empty_valid
  free := rfl
  numbered := rfl
  indexed := rfl

namespace Compact

theorem mem_live (compact : g.Compact) (id : NodeId) :
    id ∈ g.contents.live ↔ id.toNat < g.next := by
  rw [← List.mem_range, ← compact.numbered, contents, Entries.mem_contents_live,
    Option.isSome_iff_ne_none, Ne, Entries.lookup_isNone, not_not, List.mem_map, List.mem_map]
  exact exists_congr fun entry => and_congr_right fun _ => NodeId.toNat_inj.symm

theorem nextId_eq (compact : g.Compact) : g.nextId = NodeId.ofNat g.next := by
  rw [nextId, compact.free, List.headD_nil]

theorem add (compact : g.Compact) (room : g.next < NodeId.count) {node : Node} {id : NodeId}
    (added : g.addNode node = .ok (id, g')) : g'.Compact ∧ g'.next = g.next + 1 := by
  have hasRoom : g.HasRoom := fun _ => room
  rcases addNode_cases compact.toValid hasRoom node with ⟨_, _, _, _, refused⟩ |
    ⟨unkeyed, g'', added', valid, -⟩
  · rw [refused] at added
    cases added
  · rw [added] at added'
    cases added'
    obtain ⟨-, entered, nodes, -, free, next⟩ := addNode_ok added
    rw [if_pos compact.free] at next
    have above (entry : NodeId × NodeRecord) (mem : entry ∈ g.nodes) : entry.1 < g.nextId := by
      rw [compact.nextId_eq]
      change _ < (NodeId.ofNat g.next).toNat
      rw [NodeId.toNat_ofNat room, ← List.mem_range, ← compact.numbered]
      exact List.mem_map_of_mem mem
    rw [placed_eq_append _ above] at nodes
    refine ⟨⟨valid, ?_, ?_, ?_⟩, next⟩
    · rw [free, compact.free, List.tail_nil]
    · rw [nodes, next, List.range_succ, List.map_append, compact.numbered, compact.nextId_eq,
        List.map_singleton, NodeId.toNat_ofNat room]
    · rw [enterKey_eq compact.toValid _ unkeyed, Except.ok.injEq] at entered
      rw [← entered, nodes, Entries.keyIndex_append, Entries.keyIndex_singleton, compact.indexed]

theorem link (compact : g.Compact) {e : Edge} {isNew : Bool}
    (added : g.addEdge e = .ok (isNew, g')) : g'.Compact ∧ g'.next = g.next := by
  obtain ⟨⟨source, target, hs, ht, permitted⟩, edges, rfl⟩ := addEdge_ok added
  obtain ⟨g', added', valid, -, -⟩ := addEdge_eq compact.toValid hs ht permitted
  rw [added] at added'
  cases added'
  exact ⟨⟨valid, compact.free, compact.numbered, compact.indexed⟩, rfl⟩

theorem remark (compact : g.Compact) {f : NodeId × NodeRecord → NodeId × NodeRecord}
    (same : ∀ entry, (f entry).1 = entry.1 ∧ (f entry).2.node = entry.2.node)
    (valid : Valid { g with nodes := g.nodes.map f }) :
      Compact { g with nodes := g.nodes.map f } where
  toValid := valid
  free := compact.free
  numbered := by
    rw [← compact.numbered, List.map_map]
    congr 1
    funext entry
    simp [same entry]
  indexed := by
    rw [Entries.keyIndex_map same]
    exact compact.indexed

theorem mark (compact : g.Compact) {ids : List NodeId} {n : Nat}
    (marked : g.setMarks ids = .ok (n, g')) : g'.Compact ∧ g'.next = g.next := by
  cases missing : ids.find? fun id => !g.contains id with
  | some id =>
      rw [setMarks_eq_error missing] at marked
      cases marked
  | none =>
      have existing (id : NodeId) (mem : id ∈ ids) : id ∈ g.contents.live := by
        have found := List.find?_eq_none.mp missing id mem
        rwa [Bool.not_eq_true', Bool.not_eq_false, contains_iff] at found
      rw [setMarks_eq compact.toValid existing] at marked
      cases marked
      refine ⟨compact.remark (fun entry => ?_) (compact.toValid.setMarks existing), rfl⟩
      rw [Entries.markListed]
      split <;> exact ⟨rfl, rfl⟩

theorem clearMarks (compact : g.Compact) :
    g.clearMarks.2.Compact ∧ g.clearMarks.2.next = g.next := by
  rw [clearMarks_eq compact.toValid]
  exact ⟨compact.remark (fun _ => ⟨rfl, rfl⟩) compact.toValid.clearMarks, rfl⟩

theorem places_numbered {rest : Entries} {n : Nat}
    (numbered : rest.map (fun entry => entry.1.toNat) = List.range' g.next n)
    (placed : rest.foldlM (fun g entry => g.placeRecord entry.1 entry.2) g = .ok g')
    (valid : g.Valid)
    (noEdges : g.edges = []) :
    g'.Valid ∧ g' = ⟨g.nodes ++ rest, [], Entries.keyIndex rest ++ g.index, g.free,
      g.next + n⟩ := by
  induction rest generalizing g n with
  | nil =>
      cases placed
      obtain rfl : n = 0 := by simpa using congrArg List.length numbered.symm
      refine ⟨valid, ?_⟩
      rw [List.append_nil, ← noEdges]
      rfl
  | cons entry rest ih =>
      obtain ⟨id, record⟩ := entry
      obtain _ | n := n
      · cases numbered
      rw [List.map_cons, List.range'_succ, List.cons.injEq] at numbered
      obtain ⟨number, numbered⟩ := numbered
      rw [List.foldlM_cons, bind_eq_ok] at placed
      obtain ⟨g₁, first, placed⟩ := placed
      obtain ⟨unkeyed, entered, free⟩ := placeRecord_ok valid first
      obtain ⟨g₂, first', valid₁, nodes, edges, next⟩ :=
        placeRecord_eq valid number.ge unkeyed
      rw [first] at first'
      cases first'
      rw [number] at next
      obtain ⟨valid', rfl⟩ := ih (next ▸ numbered) placed valid₁ (edges.trans noEdges)
      refine ⟨valid', ?_⟩
      rw [enterKey_eq valid id unkeyed, Except.ok.injEq] at entered
      have keys : Entries.keyIndex ((id, record) :: rest) = Entries.keyIndex rest ++
          (record.node.key?.map fun key => (key.canonical, id)).toList := by
        rw [← List.singleton_append, Entries.keyIndex_append, Entries.keyIndex_singleton]
      rw [nodes, next, free, ← entered, number, Nat.sub_self, keys, List.append_assoc,
        List.append_assoc, List.singleton_append, Nat.add_assoc, Nat.add_comm 1 n]
      rfl

theorem links_edges {edges : List Edge}
    (added : edges.foldlM (fun g e => Prod.snd <$> g.addEdge e) g = .ok g') :
    ∃ links, g' = { g with edges := links } := by
  induction edges generalizing g with
  | nil =>
      cases added
      exact ⟨_, rfl⟩
  | cons e edges ih =>
      rw [List.foldlM_cons, bind_eq_ok] at added
      obtain ⟨g₁, linked, added⟩ := added
      obtain ⟨⟨_, _⟩, first, rfl⟩ := map_eq_ok.mp linked
      obtain ⟨-, links, rfl⟩ := addEdge_ok first
      obtain ⟨links', rfl⟩ := ih added
      exact ⟨links', rfl⟩

/-- A compact graph is what is built from its records and edges. -/
theorem ofParts_self (compact : g.Compact) : ofParts g.nodes g.edges = .ok g := by
  obtain ⟨built, parts, valid, holds⟩ := ofParts_eq compact.ascending compact.contents
  rw [parts, Except.ok.injEq]
  rw [ofParts, sorted_eq compact.ascending, bind_eq_ok] at parts
  obtain ⟨base, placed, added⟩ := parts
  obtain ⟨-, rfl⟩ := places_numbered (compact.numbered.trans List.range_eq_range') placed
    empty_valid rfl
  obtain ⟨links, rfl⟩ := links_edges added
  have same : links = g.edges := by
    refine eq_of_ascending (Edge.place Relation.rank) valid.ordered compact.ordered fun e => ?_
    exact Set.ext_iff.mp (congrArg Contents.edges holds) e
  change DependencyGraph.mk g.nodes links (Entries.keyIndex g.nodes ++ []) [] (0 + g.next) = g
  rw [same, List.append_nil, ← compact.indexed, ← compact.free, Nat.zero_add]

end Compact

end DependencyGraph

end BlastRadius
