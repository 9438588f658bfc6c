import BlastRadius.Graph.Mermaid
import BlastRadius.Proofs.Graph.Compact
import BlastRadius.Proofs.Graph.Placeholders

/-!
Graphs that are built from any records with distinct identifiers and any edges: when this succeeds,
what is read from the graph, and which identifiers new nodes take afterwards.
-/

namespace BlastRadius

namespace Entries

variable {records : Entries}

abbrev sorted (records : Entries) : Entries := records.mergeSort fun a b => decide (a.1 ≤ b.1)

/-- The identifiers that records leave out, in the order in which new nodes take them: the gaps, the
greatest first, and then those beyond all records. -/
def unlisted (records : Entries) : List NodeId :=
  (((List.range records.span).reverse ++
      List.range' records.span (NodeId.count - records.span)).map NodeId.ofNat).filter
    fun id => !(records.map Prod.fst).contains id

theorem span_perm {others : Entries} (same : records.Perm others) : records.span = others.span :=
  (same.map _).foldr_eq 0

theorem lt_span {entry : NodeId × NodeRecord} (mem : entry ∈ records) :
    entry.1.toNat < records.span := by
  obtain ⟨before, after, rfl⟩ := List.append_of_mem mem
  rw [← List.singleton_append, span_append, span_append]
  have own : entry.1.toNat < span [entry] := lt_of_lt_of_eq (Nat.lt_succ_self _)
      (Nat.max_zero _).symm
  omega

theorem span_le (records : Entries) : records.span ≤ NodeId.count := by
  induction records with
  | nil => exact Nat.zero_le _
  | cons entry rest ih => exact Nat.max_le.mpr ⟨entry.1.toNat_lt, ih⟩

/-- Every identifier, in the order in which those that are left are taken. -/
def inOrder (records : Entries) : List NodeId :=
  ((List.range records.span).reverse ++
    List.range' records.span (NodeId.count - records.span)).map NodeId.ofNat

theorem inOrder_perm (records : Entries) :
    records.inOrder.Perm ((List.range NodeId.count).map NodeId.ofNat) := by
  obtain ⟨n, split⟩ := Nat.exists_eq_add_of_le (span_le records)
  have above : NodeId.count - records.span = n := by omega
  have numbers : List.range NodeId.count = List.range records.span ++
      List.range' records.span n := by
    rw [split, List.range_eq_range', List.range_eq_range', ← List.range'_append_1, Nat.zero_add]
  rw [numbers, inOrder, above]
  exact ((List.reverse_perm _).append_right _).map _

theorem mem_inOrder (records : Entries) (id : NodeId) : id ∈ records.inOrder := by
  rw [(inOrder_perm records).mem_iff]
  exact List.mem_map.mpr ⟨id.toNat, List.mem_range.mpr id.toNat_lt, NodeId.ofNat_toNat id⟩

theorem inOrder_nodup (records : Entries) : records.inOrder.Nodup := by
  rw [(inOrder_perm records).nodup_iff]
  refine List.Nodup.map_on (fun a ha b hb same => ?_) List.nodup_range
  rw [← NodeId.toNat_ofNat (List.mem_range.mp ha), same,
    NodeId.toNat_ofNat (List.mem_range.mp hb)]

theorem length_unlisted (distinct : (records.map Prod.fst).Nodup) :
    records.unlisted.length + records.length = NodeId.count := by
  have listed : (records.inOrder.filter fun id => (records.map Prod.fst).contains id).Perm
      (records.map Prod.fst) := by
    refine (List.perm_ext_iff_of_nodup ((inOrder_nodup records).filter _) distinct).mpr fun id => ?_
    rw [List.mem_filter, List.contains_iff_mem]
    exact and_iff_right (mem_inOrder records id)
  have split := List.length_eq_length_filter_add (l := records.inOrder)
    fun id => (records.map Prod.fst).contains id
  rw [listed.length_eq, List.length_map, (inOrder_perm records).length_eq, List.length_map,
    List.length_range] at split
  rw [split, Nat.add_comm]
  rfl

end Entries

namespace DependencyGraph

variable {g g' : DependencyGraph} {records : Entries} {edges : List Edge}

/-- The identifiers that are left for new nodes, in the order in which these take them. -/
def upcoming (g : DependencyGraph) : List NodeId :=
  g.free ++ (List.range' g.next (NodeId.count - g.next)).map NodeId.ofNat

/-- Adds nodes one after the other, as far as they are not refused, and lists their identifiers. -/
def additions : List Node → DependencyGraph → List NodeId × DependencyGraph
  | [], g => ([], g)
  | node :: rest, g =>
      match g.addNode node with
      | .ok (id, g') => (id :: (additions rest g').1, (additions rest g').2)
      | .error _ => additions rest g

theorem addNode_upcoming {node : Node} {id : NodeId} (room : g.upcoming ≠ [])
    (added : g.addNode node = .ok (id, g')) : g.upcoming = id :: g'.upcoming := by
  obtain ⟨rfl, -, -, -, free, next⟩ := addNode_ok added
  cases left : g.free with
  | nil =>
      rw [left, List.tail_nil] at free
      rw [if_pos left] at next
      have below : g.next < NodeId.count := by
        by_contra full
        refine room ?_
        rw [upcoming, left, Nat.sub_eq_zero_of_le (not_lt.mp full)]
        rfl
      obtain ⟨n, more⟩ := Nat.exists_eq_add_of_lt below
      have here : NodeId.count - g.next = n + 1 := by omega
      have there : NodeId.count - (g.next + 1) = n := by omega
      rw [upcoming, upcoming, free, next, left, here, there, nextId, left, List.range'_succ]
      rfl
  | cons head rest =>
      rw [left, List.tail_cons] at free
      rw [if_neg (left ▸ List.cons_ne_nil head rest)] at next
      rw [upcoming, upcoming, free, next, left, nextId, left]
      rfl

/-- New nodes take the identifiers that are left, one after the other. -/
theorem additions_upcoming {nodes : List Node} (room : nodes.length ≤ g.upcoming.length) :
    (additions nodes g).1 ++ (additions nodes g).2.upcoming = g.upcoming := by
  induction nodes generalizing g with
  | nil => rfl
  | cons node rest ih =>
      rw [additions]
      cases added : g.addNode node with
      | error error => exact ih ((Nat.le_succ _).trans room)
      | ok result =>
          obtain ⟨id, g'⟩ := result
          have first := addNode_upcoming (List.ne_nil_of_length_pos (Nat.zero_lt_of_lt room)) added
          rw [first] at room ⊢
          exact congrArg (id :: ·) (ih (Nat.le_of_succ_le_succ room))

theorem mem_links (valid : g.Valid)
    (added : edges.foldlM (fun g e => Prod.snd <$> g.addEdge e) g = .ok g') (e : Edge) :
    e ∈ g'.edges ↔ e ∈ g.edges ∨ e ∈ edges := by
  induction edges generalizing g with
  | nil =>
      cases added
      simp
  | cons first rest ih =>
      rw [List.foldlM_cons, bind_eq_ok] at added
      obtain ⟨g₁, linked, added⟩ := added
      obtain ⟨⟨isNew, next⟩, entered, rfl⟩ := map_eq_ok.mp linked
      obtain ⟨⟨source, target, hs, ht, permitted⟩, -⟩ := addEdge_ok entered
      obtain ⟨g₂, entered', valid₁, holds, -⟩ := addEdge_eq valid hs ht permitted
      rw [entered] at entered'
      cases entered'
      have links : e ∈ next.edges ↔ e = first ∨ e ∈ g.edges :=
        Set.ext_iff.mp (congrArg Contents.edges holds) e
      rw [ih valid₁ added, links, List.mem_cons]
      tauto

theorem ofParts_ok (distinct : (records.map Prod.fst).Nodup)
    (built : ofParts records edges = .ok g) :
    ∃ base : DependencyGraph, base.Placed ∧ base.nodes = records.sorted ∧
      records.sorted.foldlM (fun g entry => g.placeRecord entry.1 entry.2) empty = .ok base ∧
      g = { base with edges := g.edges } ∧ ∀ e, e ∈ g.edges ↔ e ∈ edges := by
  rw [ofParts] at built
  obtain ⟨base, placed, added⟩ := bind_eq_ok.mp built
  obtain ⟨is, nodes⟩ := empty_placed.places (sorted_ascending distinct)
    (fun _ _ => Nat.zero_le _) placed
  refine ⟨base, is, nodes, placed, ?_, fun e => ?_⟩
  · obtain ⟨links, rfl⟩ := Compact.links_edges added
    rfl
  · rw [mem_links is.toValid added, is.edges]
    simp

theorem ofParts_nodes (distinct : (records.map Prod.fst).Nodup)
    (built : ofParts records edges = .ok g) :
    g.nodes = records.sorted := by
  obtain ⟨base, -, nodes, -, same, -⟩ := ofParts_ok distinct built
  rw [same]
  exact nodes

theorem contents_ofParts (distinct : (records.map Prod.fst).Nodup)
    (built : ofParts records edges = .ok g) : g.contents = records.sorted.contents edges := by
  obtain ⟨-, -, -, -, -, links⟩ := ofParts_ok distinct built
  rw [contents, ofParts_nodes distinct built]
  exact Contents.ext rfl (Set.ext links) rfl

theorem ofParts_isOk (distinct : (records.map Prod.fst).Nodup) :
    (∃ g, ofParts records edges = .ok g) ↔ (records.sorted.contents edges).Valid := by
  constructor
  · rintro ⟨g, built⟩
    rw [← contents_ofParts distinct built]
    exact (ofParts_accounted distinct built).contents
  · intro valid
    have ascending := sorted_ascending distinct
    obtain ⟨g, built, -, -⟩ := ofParts_eq ascending valid
    refine ⟨g, ?_⟩
    rw [ofParts, sorted_eq ascending] at built
    exact built

theorem sorted_node? (distinct : (records.map Prod.fst).Nodup) {id : NodeId} {node : Node} :
    (records.sorted.contents edges).node? id = some node ↔
      ∃ record, (id, record) ∈ records ∧ record.node = node := by
  rw [Entries.contents_node?, Option.map_eq_some_iff]
  simp only [Entries.lookup_eq_some (sorted_ascending distinct), Entries.sorted, List.mem_mergeSort]

/-- What makes records and edges the parts of a graph. -/
theorem sorted_valid_iff (distinct : (records.map Prod.fst).Nodup) :
    (records.sorted.contents edges).Valid ↔
      (∀ a ∈ records, ∀ b ∈ records, ∀ key, a.2.node.key? = some key →
        b.2.node.key? = some key →
        a.1 = b.1) ∧
      ∀ e ∈ edges, ∃ source target, (e.source, source) ∈ records ∧
        (e.target, target) ∈ records ∧
        e.relation.permits source.node.kind target.node.kind = true := by
  constructor
  · intro valid
    refine ⟨fun a ha b hb key ka kb => ?_, fun e mem => ?_⟩
    · exact valid.key_unique key ⟨_, (sorted_node? distinct).mpr ⟨a.2, ha, rfl⟩, ka⟩
        ⟨_, (sorted_node? distinct).mpr ⟨b.2, hb, rfl⟩, kb⟩
    · obtain ⟨_, _, hs, ht, permitted⟩ := valid.permitted e mem
      obtain ⟨source, ls, rfl⟩ := (sorted_node? distinct).mp hs
      obtain ⟨target, lt, rfl⟩ := (sorted_node? distinct).mp ht
      exact ⟨source, target, ls, lt, permitted⟩
  · rintro ⟨unique, permitted⟩
    refine ⟨fun e mem => ?_, Entries.contents_marked_live, fun key a ha b hb => ?_⟩
    · obtain ⟨source, target, ls, lt, allowed⟩ := permitted e mem
      exact ⟨source.node, target.node, (sorted_node? distinct).mpr ⟨source, ls, rfl⟩,
        (sorted_node? distinct).mpr ⟨target, lt, rfl⟩, allowed⟩
    · obtain ⟨_, fa, ka⟩ := ha
      obtain ⟨_, fb, kb⟩ := hb
      obtain ⟨first, la, rfl⟩ := (sorted_node? distinct).mp fa
      obtain ⟨second, lb, rfl⟩ := (sorted_node? distinct).mp fb
      exact unique (a, first) la (b, second) lb key ka kb

theorem contains_ofParts (distinct : (records.map Prod.fst).Nodup)
    (built : ofParts records edges = .ok g) (id : NodeId) :
    g.contains id = (records.map Prod.fst).contains id := by
  rw [Bool.eq_iff_iff, contains_iff, contents_ofParts distinct built, List.contains_iff_mem,
    List.mem_map]
  constructor
  · rintro ⟨node, found⟩
    obtain ⟨record, mem, -⟩ := (sorted_node? distinct).mp found
    exact ⟨(id, record), mem, rfl⟩
  · rintro ⟨⟨_, record⟩, mem, rfl⟩
    exact ⟨record.node, (sorted_node? distinct).mpr ⟨record, mem, rfl⟩⟩

theorem free_ofParts (distinct : (records.map Prod.fst).Nodup)
    (built : ofParts records edges = .ok g) :
    g.free = g.gaps.reverse.map NodeId.ofNat ∧ g.next = records.span := by
  obtain ⟨base, is, nodes, -, same, -⟩ := ofParts_ok distinct built
  rw [same]
  refine ⟨is.free, is.span.trans ?_⟩
  rw [nodes]
  exact Entries.span_perm (List.mergeSort_perm records _)

/-- After the records, new nodes take what these leave out. -/
theorem upcoming_ofParts (distinct : (records.map Prod.fst).Nodup)
    (built : ofParts records edges = .ok g) : g.upcoming = records.unlisted := by
  obtain ⟨free, next⟩ := free_ofParts distinct built
  have below : g.gaps.reverse.map NodeId.ofNat =
      ((List.range records.span).reverse.map NodeId.ofNat).filter
        fun id => !(records.map Prod.fst).contains id := by
    rw [gaps, next, List.filter_map, ← List.filter_reverse]
    refine congrArg (List.map NodeId.ofNat) (List.filter_congr fun n _ => ?_)
    rw [contains_ofParts distinct built]
    rfl
  have above : ((List.range' records.span (NodeId.count - records.span)).map NodeId.ofNat).filter
      (fun id => !(records.map Prod.fst).contains id) =
        (List.range' records.span (NodeId.count - records.span)).map NodeId.ofNat := by
    refine List.filter_eq_self.mpr fun id mem => ?_
    obtain ⟨n, within, rfl⟩ := List.mem_map.mp mem
    rw [List.mem_range'_1] at within
    have small : n < NodeId.count := by have := Entries.span_le records; omega
    rw [Bool.not_eq_true', ← Bool.not_eq_true, List.contains_iff_mem, List.mem_map]
    rintro ⟨entry, listed, same⟩
    have lt := Entries.lt_span listed
    rw [same, NodeId.toNat_ofNat small] at lt
    omega
  rw [upcoming, Entries.unlisted, List.map_append, List.filter_append, above, free, below, next]

/-- A graph that is an exact rebuild: it holds the records, unchanged and by ascending identifier,
and the edges, in order and without repetition. Its slots are those that placeholders lead to, and
new nodes take the identifiers that are not listed. -/
structure Rebuilt (records : Entries) (edges : List Edge) (g : DependencyGraph) : Prop where
  nodes : g.nodes.Perm records
  ascending : (g.nodes.map Prod.fst).Pairwise (· < ·)
  links : ∀ e, e ∈ g.edges ↔ e ∈ edges
  ordered : g.edges.Pairwise fun a b => a.before b = true
  contains : ∀ id, g.contains id = true ↔ id ∈ records.map Prod.fst
  find : ∀ key id, g.find? key = some id ↔
    ∃ record, (id, record) ∈ records ∧ record.node.key? = some key
  slots : Slots.rebuild records =
    .ok (⟨(List.range g.next).map fun n => g.record? (NodeId.ofNat n), g.gaps.reverse⟩, g.index)
  vacant : g.free = g.gaps.reverse.map NodeId.ofNat
  later : ∀ nodes, records.length + nodes.length ≤ NodeId.count →
    (additions nodes g).1 <+: records.unlisted

theorem ofParts_rebuilt (distinct : (records.map Prod.fst).Nodup)
    (built : ofParts records edges = .ok g) : Rebuilt records edges g := by
  have valid := (ofParts_accounted distinct built).toValid
  obtain ⟨base, -, -, placed, same, links⟩ := ofParts_ok distinct built
  refine ⟨?_, valid.ascending, links, ?_, fun id => ?_, fun key id => ?_, ?_,
    (free_ofParts distinct built).1, fun nodes room => ?_⟩
  · rw [ofParts_nodes distinct built]
    exact List.mergeSort_perm records _
  · exact valid.ordered.imp fun before => (before_iff _ _).mpr before
  · rw [contains_ofParts distinct built, List.contains_iff_mem]
  · rw [find?_eq valid, valid.contents.find?_eq_some, contents_ofParts distinct built]
    constructor
    · rintro ⟨node, found, own⟩
      obtain ⟨record, mem, rfl⟩ := (sorted_node? distinct).mp found
      exact ⟨record, mem, own⟩
    · rintro ⟨record, mem, own⟩
      exact ⟨record.node, (sorted_node? distinct).mpr ⟨record, mem, rfl⟩, own⟩
  · rw [rebuild_eq distinct, placed, same]
    rfl
  · have left := Entries.length_unlisted distinct
    rw [← upcoming_ofParts distinct built] at left ⊢
    exact ⟨_, additions_upcoming (by omega)⟩

/-- Two graphs that answer every query alike. -/
structure AnswersAlike (g g' : DependencyGraph) : Prop where
  nodes : g'.nodes = g.nodes
  edges : g'.edges = g.edges
  contains : ∀ id, g'.contains id = g.contains id
  record : ∀ id, g'.record id = g.record id
  node : ∀ id, g'.node id = g.node id
  find : ∀ key, g'.find? key = g.find? key
  nodesOfKind : ∀ kind, g'.nodesOfKind kind = g.nodesOfKind kind
  targets : ∀ id relation, g'.targets id relation = g.targets id relation
  sources : ∀ id relation, g'.sources id relation = g.sources id relation
  isMarked : ∀ id, g'.isMarked id = g.isMarked id
  markedOfKind : ∀ kind, g'.markedOfKind kind = g.markedOfKind kind
  flowchart : Mermaid.render g' = Mermaid.render g

theorem answersAlike_of_contents (valid : g.Valid) (valid' : g'.Valid)
    (same : g'.contents = g.contents) : AnswersAlike g g' := by
  have nodes : g'.nodes = g.nodes := Entries.eq_of_contents valid'.ascending valid.ascending same
  have edges : g'.edges = g.edges := eq_of_ascending (Edge.place Relation.rank) valid'.ordered
    valid.ordered fun e => Set.ext_iff.mp (congrArg Contents.edges same) e
  have record (id : NodeId) : g'.record id = g.record id := by
    rw [DependencyGraph.record, DependencyGraph.record, record?, record?, nodes]
  refine ⟨nodes, edges, fun id => ?_, record, fun id => ?_, fun key => ?_, fun kind => ?_,
    fun id relation => ?_, fun id relation => ?_, fun id => ?_, fun kind => ?_, ?_⟩
  · rw [contains, contains, record?, record?, nodes]
  · rw [node, node, record]
  · rw [find?_eq valid', find?_eq valid, same]
  · rw [nodesOfKind, nodesOfKind, idsWhere, idsWhere, nodes]
  · rw [targets, targets, record, edges]
  · rw [sources, sources, record, edges]
  · rw [isMarked, isMarked, record]
  · rw [markedOfKind, markedOfKind, idsWhere, idsWhere, nodes]
  · rw [Mermaid.render, Mermaid.render, Mermaid.lines, Mermaid.lines, idsWhere, idsWhere,
      nodes, edges]

/-- Records with distinct identifiers are rebuilt exactly if no two of them have one key and
every edge joins two of them as its relation permits. What a graph was taken apart into makes a
graph that answers alike. -/
theorem ofParts_exact (records : Entries) (edges : List Edge)
    (distinct : (records.map Prod.fst).Nodup) :
    ((∃ g, ofParts records edges = .ok g) ↔
      (∀ a ∈ records, ∀ b ∈ records, ∀ key, a.2.node.key? = some key →
        b.2.node.key? = some key →
        a.1 = b.1) ∧
      ∀ e ∈ edges, ∃ source target, (e.source, source) ∈ records ∧
        (e.target, target) ∈ records ∧
        e.relation.permits source.node.kind target.node.kind = true) ∧
    (∀ g, ofParts records edges = .ok g → Rebuilt records edges g) ∧
    ∀ g, Reachable g → ∃ g', ofParts g.nodes g.edges = .ok g' ∧ AnswersAlike g g' := by
  refine ⟨(ofParts_isOk distinct).trans (sorted_valid_iff distinct),
    fun g built => ofParts_rebuilt distinct built, fun g reachable => ?_⟩
  have valid := reachable.accounted.toValid
  obtain ⟨g', built, valid', same⟩ := ofParts_eq valid.ascending valid.contents
  exact ⟨g', built, answersAlike_of_contents valid valid' same⟩

/-- Two records in the wrong order with gaps before and between them, and one edge given twice. -/
theorem ofParts_exact_of_sparse :
    let records : Entries :=
      [(NodeId.ofNat 4, ⟨.symbol "f", true⟩),
        (NodeId.ofNat 1, ⟨.library ⟨"l", "1"⟩, false⟩)]
    let edge : Edge := ⟨NodeId.ofNat 1, .provides, NodeId.ofNat 4⟩
    (records.map Prod.fst).Nodup ∧ ∃ g, ofParts records [edge, edge] = .ok g ∧
      g.nodes = records.reverse ∧ g.edges = [edge] ∧ Rebuilt records [edge, edge] g ∧
      (additions [.binding, .symbol "f", .symbol "g"] g).1 = [NodeId.ofNat 3, NodeId.ofNat 2] := by
  intro records edge
  have distinct : (records.map Prod.fst).Nodup := by decide
  obtain ⟨-, rebuilt, -⟩ := ofParts_exact records [edge, edge] distinct
  have built : ofParts records [edge, edge] = .ok
      { nodes := records.reverse
        edges := [edge]
        index := [("symbol:1#f", NodeId.ofNat 4), ("library:1#l:1#1", NodeId.ofNat 1)]
        free := [NodeId.ofNat 3, NodeId.ofNat 2, NodeId.ofNat 0]
        next := 5 } := by
    have order : (records.mergeSort fun a b => decide (a.1 ≤ b.1)) = records.reverse :=
      eq_of_ascending Prod.fst (List.pairwise_map.mp (sorted_ascending distinct)) (by decide)
        fun entry => by rw [List.mem_mergeSort, List.mem_reverse]
    rw [ofParts, order]
    decide
  exact ⟨distinct, _, built, rfl, rfl, rebuilt _ built, by decide⟩

end DependencyGraph

end BlastRadius
