import BlastRadius.Proofs.Graph.Parts
import BlastRadius.Proofs.Node.Codec
import BlastRadius.Proofs.Store.Answers
import BlastRadius.Store.Database

/-!
The tables of a database as records and edges, and what is read from them.

A row is the written form of a record or an edge and can be read back. Edges are listed by the texts
of their relations, which is another order than that of a graph.
-/

namespace BlastRadius

/-- The place of a relation in the order of the written names. -/
def Relation.nameRank : Relation → Nat
  | callees => 0
  | caller => 1
  | composedOf => 2
  | exposes => 3
  | hostedBy => 4
  | provides => 5
  | serves => 6
  | specializesInto => 7
  | threatens => 8

theorem Relation.nameRank_injective : Function.Injective nameRank := by
  intro a b h
  cases a <;> cases b <;> first | rfl | exact absurd h (by decide)

theorem Relation.name_lt (a b : Relation) : a.name < b.name ↔ a.nameRank < b.nameRank := by
  cases a <;> cases b <;> decide

theorem Relation.name_eq (a b : Relation) : a.name = b.name ↔ a = b := by
  cases a <;> cases b <;> decide

theorem Relation.parse_name (relation : Relation) : parse relation.name = .ok relation := by
  cases relation <;> rfl

theorem NodeKind.parse_name (kind : NodeKind) : parse kind.name = .ok kind := by
  cases kind <;> rfl

theorem NodeKind.name_beq (a b : NodeKind) : (a.name == b.name) = (a == b) := by
  cases a <;> cases b <;> decide

def NodeRow.ofEntry (entry : NodeId × NodeRecord) : NodeRow where
  id := entry.1.toNat
  kind := entry.2.node.kind.name
  uniqueKey := entry.2.node.key?.map NodeKey.canonical
  json := entry.2.node.toText
  marked := entry.2.marked

def EdgeRow.ofEdge (e : Edge) : EdgeRow := ⟨e.source, e.relation.name, e.target⟩

theorem EdgeRow.ofEdge_injective : Function.Injective ofEdge := by
  rintro ⟨s, r, t⟩ ⟨s', r', t'⟩ h
  obtain ⟨rfl, name, rfl⟩ := (EdgeRow.mk.injEq ..).mp h
  rw [(Relation.name_eq r r').mp name]

namespace Tables

/-- The tables that records and edges are written as. -/
def written (entries : Entries) (edges : List Edge) : Tables where
  nodes := entries.map NodeRow.ofEntry
  edges := edges.map EdgeRow.ofEdge

/-- The records that can be read from the rows of nodes. -/
def entries (tables : Tables) : Entries :=
  tables.nodes.filterMap fun row => (entry row).toOption

/-- The edges that can be read from the rows of edges. -/
def links (tables : Tables) : List Edge :=
  tables.edges.filterMap fun row => (edge row).toOption

def contents (tables : Tables) : Contents := Entries.contents tables.entries tables.links

/-- The tables are the written form of what they hold, in order, and obey the schema. -/
structure Valid (tables : Tables) : Prop where
  rows : tables = written tables.entries tables.links
  ascending : tables.entries.Ascending
  ordered : Edge.Ordered Relation.nameRank tables.links
  contents : tables.contents.Valid

theorem identifier_toNat (id : NodeId) : identifier id.toNat = .ok id := by
  have found : NodeId.ofInt? id.toNat = some id := by
    have bound := id.toNat_lt
    rw [NodeId.ofInt?, if_pos (by omega), Int.toNat_natCast, NodeId.ofNat_toNat]
  rw [identifier, found]

theorem entry_ofEntry (record : NodeId × NodeRecord) :
    entry (NodeRow.ofEntry record) = .ok record := by
  have node : nodeOf (NodeRow.ofEntry record) = .ok record.2.node := by
    rw [nodeOf, NodeRow.ofEntry, Node.ofText_toText]
    rfl
  rw [entry, node]
  exact congrArg (· >>= fun id => Except.ok (id, record.2)) (identifier_toNat record.1)

theorem edge_ofEdge (e : Edge) : edge (EdgeRow.ofEdge e) = .ok e := by
  rw [edge, EdgeRow.ofEdge, Relation.parse_name]
  rfl

variable {es : Entries} {ls : List Edge}

@[simp] theorem entries_written : (written es ls).entries = es := by
  rw [entries, written, List.filterMap_map]
  refine (List.filterMap_congr fun record _ => ?_).trans List.filterMap_some
  rw [Function.comp_apply, entry_ofEntry, Except.toOption]

@[simp] theorem links_written : (written es ls).links = ls := by
  rw [links, written, List.filterMap_map]
  refine (List.filterMap_congr fun e _ => ?_).trans List.filterMap_some
  rw [Function.comp_apply, edge_ofEdge, Except.toOption]

@[simp] theorem contents_written : (written es ls).contents = es.contents ls := by
  rw [contents, entries_written, links_written]

theorem written_valid (ascending : es.Ascending) (ordered : Edge.Ordered Relation.nameRank ls)
    (valid : (es.contents ls).Valid) : (written es ls).Valid where
  rows := by rw [entries_written, links_written]
  ascending := by rw [entries_written]; exact ascending
  ordered := by rw [links_written]; exact ordered
  contents := by rw [contents_written]; exact valid

theorem empty_valid : Valid {} := by
  change (written [] []).Valid
  refine written_valid List.Pairwise.nil List.Pairwise.nil ?_
  rw [show Entries.contents [] [] = Contents.empty from DependencyGraph.contents_empty]
  exact Contents.empty_valid

theorem Valid.exists_written {tables : Tables} (valid : tables.Valid) :
    ∃ es ls, tables = written es ls ∧ es.Ascending ∧ Edge.Ordered Relation.nameRank ls ∧
      (es.contents ls).Valid :=
  ⟨_, _, valid.rows, valid.ascending, valid.ordered, valid.contents⟩

theorem ofEntry_id_beq (entry : NodeId × NodeRecord) (id : NodeId) :
    ((NodeRow.ofEntry entry).id == (id.toNat : Int)) = (entry.1 == id) := by
  rw [Bool.eq_iff_iff, beq_iff_eq, beq_iff_eq, ← NodeId.toNat_inj]
  exact Int.natCast_inj

theorem row?_written (id : NodeId) : (written es ls).row? id =
    (es.lookup id).map fun record => NodeRow.ofEntry (id, record) := by
  have found : (es.map NodeRow.ofEntry).find? (fun row => row.id == (id.toNat : Int)) =
      (es.lookup id).map fun record => NodeRow.ofEntry (id, record) := by
    induction es with
    | nil => rfl
    | cons entry rest ih =>
        rw [List.map_cons, List.find?_cons, ofEntry_id_beq, Entries.lookup_cons, ih]
        by_cases same : id = entry.1
        · subst same
          simp
        · simp [same, beq_eq_false_iff_ne.mpr (Ne.symm same)]
  exact found

theorem row_bind {α : Type} (id : NodeId) (f : NodeRow → Except StoreError α)
    (answer : Node → α)
    (h : ∀ record, es.lookup id = some record →
      f (NodeRow.ofEntry (id, record)) = .ok (answer record.node)) :
    ((written es ls).row id >>= f) = (es.contents ls).about id answer := by
  rw [row, row?_written, Contents.about, Entries.contents_node?]
  cases found : es.lookup id with
  | none => rfl
  | some record => exact h record found

theorem kindOf_written (id : NodeId) :
    (written es ls).kindOf id = (es.contents ls).about id Node.kind := by
  refine row_bind id _ Node.kind fun record _ => ?_
  rw [NodeRow.ofEntry, NodeKind.parse_name]
  rfl

theorem getNode_written (id : NodeId) :
    ((written es ls).row id >>= nodeOf) = (es.contents ls).about id fun node => node := by
  refine row_bind id _ _ fun record _ => ?_
  rw [nodeOf, NodeRow.ofEntry, Node.ofText_toText]
  rfl

theorem isMarked_written (id : NodeId) : (NodeRow.marked <$> (written es ls).row id) =
    (es.contents ls).about id fun _ => (es.contents ls).isMarked id := by
  rw [row, row?_written, Contents.about, Entries.contents_node?]
  cases found : es.lookup id with
  | none => rfl
  | some record =>
      have same : (es.contents ls).isMarked id = record.marked := by
        rw [Bool.eq_iff_iff, Contents.isMarked_eq_true, Entries.mem_contents_marked]
        simp [found]
      change Except.ok _ = Except.ok _
      rw [same]
      rfl

theorem idsWhere_written (ascending : es.Ascending) (p : NodeRow → Bool) :
    (written es ls).idsWhere p = .ok (NodeId.listed
      {id | ∃ record, es.lookup id = some record ∧ p (NodeRow.ofEntry (id, record))}) := by
  have named (rows : Entries) : (rows.map NodeRow.ofEntry).mapM (fun row => identifier row.id) =
      .ok (rows.map Prod.fst) := by
    induction rows with
    | nil => rfl
    | cons entry rest ih =>
        rw [List.map_cons, List.mapM_cons, ih]
        exact congrArg (· >>= fun id => Except.ok (id :: rest.map Prod.fst))
          (identifier_toNat entry.1)
  change ((es.map NodeRow.ofEntry).filter p).mapM (fun row => identifier row.id) = _
  rw [List.filter_map, named, Entries.map_fst_filter ascending]
  rfl

theorem nodesOfKind_written (ascending : es.Ascending) (kind : NodeKind) :
    ((written es ls).idsWhere fun row => row.kind == kind.name) =
      .ok (NodeId.listed ((es.contents ls).ofKind kind)) := by
  rw [idsWhere_written ascending]
  congr 2
  ext id
  rw [Entries.mem_contents_ofKind]
  simp only [NodeRow.ofEntry, NodeKind.name_beq, beq_iff_eq]
  rfl

theorem markedNodes_written (ascending : es.Ascending) (kind : NodeKind) :
    ((written es ls).idsWhere fun row => row.kind == kind.name && row.marked) =
      .ok (NodeId.listed ((es.contents ls).marked ∩ (es.contents ls).ofKind kind)) := by
  rw [idsWhere_written ascending]
  congr 2
  ext id
  rw [Set.mem_inter_iff, Entries.mem_contents_ofKind, Entries.mem_contents_marked]
  cases h : es.lookup id <;>
    simp [NodeRow.ofEntry, NodeKind.name_beq, h, and_comm]

theorem ofEntry_uniqueKey (entry : NodeId × NodeRecord) (key : NodeKey) :
    ((NodeRow.ofEntry entry).uniqueKey == some key.canonical) = true ↔
      entry.2.node.key? = some key := by
  rw [beq_iff_eq, NodeRow.ofEntry, Option.map_eq_some_iff]
  constructor
  · rintro ⟨other, found, text⟩
    exact NodeKey.canonical_injective text ▸ found
  · exact fun found => ⟨key, found, rfl⟩

theorem mem_keyed_iff (ascending : es.Ascending) {key : NodeKey} {id : NodeId} :
    id ∈ (es.contents ls).keyed key ↔ ∃ record, (id, record) ∈ es ∧
      record.node.key? = some key := by
  simp only [Contents.keyed, Entries.contents_node?, Option.map_eq_some_iff, Set.mem_ofPred_eq,
    ← Entries.lookup_eq_some ascending]
  constructor
  · rintro ⟨_, ⟨record, found, rfl⟩, hkey⟩
    exact ⟨record, found, hkey⟩
  · rintro ⟨record, found, hkey⟩
    exact ⟨record.node, ⟨record, found, rfl⟩, hkey⟩

theorem findNode_written (ascending : es.Ascending) (valid : (es.contents ls).Valid)
    (key : NodeKey) : (written es ls).findNode key = .ok ((es.contents ls).find? key) := by
  have search : (written es ls).nodes.find? (fun row => row.uniqueKey == some key.canonical) =
      (es.find? ((fun row => row.uniqueKey == some key.canonical) ∘ NodeRow.ofEntry)).map
        NodeRow.ofEntry := List.find?_map
  rw [findNode, search]
  cases found : es.find? ((fun row => row.uniqueKey == some key.canonical) ∘ NodeRow.ofEntry) with
  | none =>
      have unkeyed : (es.contents ls).find? key = none := by
        rw [Contents.find?_eq_none, Set.eq_empty_iff_forall_notMem]
        intro id mem
        obtain ⟨record, mem, hkey⟩ := (mem_keyed_iff ascending).mp mem
        exact List.find?_eq_none.mp found _ mem ((ofEntry_uniqueKey (id, record) key).mpr hkey)
      rw [unkeyed]
      rfl
  | some entry =>
      have holds : ((NodeRow.ofEntry entry).uniqueKey == some key.canonical) = true := by
        simpa only [Function.comp_apply] using List.find?_some found
      have hkey := (ofEntry_uniqueKey entry key).mp holds
      have keyed : (es.contents ls).find? key = some entry.1 :=
        valid.find?_eq_some.mpr ((mem_keyed_iff ascending).mpr
          ⟨entry.2, List.mem_of_find?_eq_some found, hkey⟩)
      rw [keyed]
      exact congrArg (fun r => some <$> r) (identifier_toNat entry.1)

theorem targets_written (ordered : Edge.Ordered Relation.nameRank ls) (id : NodeId)
    (relation : Relation) : (written es ls).targets id relation =
      (es.contents ls).about id fun _ => NodeId.listed ((es.contents ls).targets id relation) := by
  refine row_bind id _ _ fun record _ => ?_
  have listed : ((ls.map EdgeRow.ofEdge).filter fun e =>
      e.source == id && e.relation == relation.name).map EdgeRow.target =
        (ls.filter fun e => e.source == id && e.relation == relation).map Edge.target := by
    rw [List.filter_map, List.map_map]
    refine congrArg (List.map _) (List.filter_congr fun e _ => ?_)
    rw [Bool.eq_iff_iff]
    simp [EdgeRow.ofEdge, Relation.name_eq]
  exact congrArg Except.ok (listed.trans (ordered.targets id relation))

theorem sources_written (ordered : Edge.Ordered Relation.nameRank ls) (id : NodeId)
    (relation : Relation) : (written es ls).sources id relation =
      (es.contents ls).about id fun _ => NodeId.listed ((es.contents ls).sources id relation) := by
  refine row_bind id _ _ fun record _ => ?_
  have listed : ((ls.map EdgeRow.ofEdge).filter fun e =>
      e.target == id && e.relation == relation.name).map EdgeRow.source =
        (ls.filter fun e => e.target == id && e.relation == relation).map Edge.source := by
    rw [List.filter_map, List.map_map]
    refine congrArg (List.map _) (List.filter_congr fun e _ => ?_)
    rw [Bool.eq_iff_iff]
    simp [EdgeRow.ofEdge, Relation.name_eq]
  exact congrArg Except.ok (listed.trans (ordered.sources id relation))

/-- The graph that valid tables are loaded as holds what they hold. -/
theorem graph_written (ascending : es.Ascending) (valid : (es.contents ls).Valid) :
    ∃ g, (written es ls).graph = .ok g ∧ g.Valid ∧ g.contents = es.contents ls := by
  obtain ⟨g, built, validG, holds⟩ := DependencyGraph.ofParts_eq ascending valid
  have records (rows : Entries) : (rows.map NodeRow.ofEntry).mapM entry = .ok rows := by
    induction rows with
    | nil => rfl
    | cons row rest ih =>
        rw [List.map_cons, List.mapM_cons, ih, entry_ofEntry]
        rfl
  have edges (rows : List Edge) : (rows.map EdgeRow.ofEdge).mapM edge = .ok rows := by
    induction rows with
    | nil => rfl
    | cons row rest ih =>
        rw [List.map_cons, List.mapM_cons, ih, edge_ofEdge]
        rfl
  refine ⟨g, ?_, validG, holds⟩
  rw [graph]
  simp only [written, records, edges]
  change (DependencyGraph.ofParts es ls).mapError StoreError.ofGraph = _
  rw [built]
  rfl

end Tables

end BlastRadius
