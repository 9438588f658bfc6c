import BlastRadius.Proofs.Graph.Parts

/-!
Graphs that are made from nothing or from parts and then edited in any order. In all of them the
index, the nodes, the edges and the answers to traversals agree, and a new node starts afresh under
an identifier that may have been used before.
-/

namespace BlastRadius.DependencyGraph

variable {g g' : DependencyGraph}

inductive Edit where
  | add (node : Node)
  | removeKind (kind : NodeKind)
  | link (e : Edge)
  | mark (ids : List NodeId)
  | clearMarks

/-- The graph that a change leads to. A change that is refused leaves the graph as it was. -/
def after {α : Type} (g : DependencyGraph) :
    Except GraphError (α × DependencyGraph) → DependencyGraph
  | .ok (_, changed) => changed
  | .error _ => g

@[simp] theorem after_ok {α : Type} (value : α) : g.after (.ok (value, g')) = g' := rfl

@[simp] theorem after_error {α : Type} (error : GraphError) :
    g.after (.error error : Except GraphError (α × DependencyGraph)) = g := rfl

def edited (g : DependencyGraph) : Edit → DependencyGraph
  | .add node => g.after (g.addNode node)
  | .removeKind kind => (g.removeKind kind).2
  | .link e => g.after (g.addEdge e)
  | .mark ids => g.after (g.setMarks ids)
  | .clearMarks => g.clearMarks.2

/-- There is an identifier that no node has. -/
def HasSpare (g : DependencyGraph) : Prop := ∃ id, g.contains id = false

/-- The graphs that can be made. A node is only added while there is an identifier for it. -/
inductive Reachable : DependencyGraph → Prop where
  | empty : Reachable .empty
  | ofParts {records : Entries} {edges : List Edge} {g : DependencyGraph}
      (distinct : (records.map Prod.fst).Nodup) (built : ofParts records edges = .ok g) :
        Reachable g
  | edited {g : DependencyGraph} (edit : Edit) (spare : ∀ node, edit = .add node → g.HasSpare) :
      Reachable g → Reachable (g.edited edit)

/-- A valid graph that has not lost an identifier: one that was used belongs to
a node or is free. -/
structure Accounted (g : DependencyGraph) : Prop extends g.Valid where
  used : ∀ id : NodeId, id.toNat < g.next → id ∈ g.free ∨ id ∈ g.contents.live
  next_le : g.next ≤ NodeId.count

theorem empty_accounted : Accounted empty where
  toValid := empty_valid
  used _ below := absurd below (Nat.not_lt_zero _)
  next_le := Nat.zero_le _

theorem Accounted.hasRoom (accounted : g.Accounted) (spare : g.HasSpare) : g.HasRoom := by
  intro none
  by_contra full
  obtain ⟨id, missing⟩ := spare
  have below : id.toNat < g.next := id.toNat_lt.trans_le (not_lt.mp full)
  rcases accounted.used id below with free | live
  · rw [none] at free
    exact List.not_mem_nil free
  · rw [← contains_iff, missing] at live
    cases live

/-- Without a free identifier, each one that was used belongs to a node. -/
theorem Accounted.next_le_length (accounted : g.Accounted) (none : g.free = []) :
    g.next ≤ g.nodes.length := by
  have small {n : Nat} (mem : n ∈ List.range g.next) : n < NodeId.count :=
    (List.mem_range.mp mem).trans_le accounted.next_le
  have sub : (List.range g.next).map NodeId.ofNat ⊆ g.nodes.map Prod.fst := by
    intro id mem
    obtain ⟨n, below, rfl⟩ := List.mem_map.mp mem
    have live := (accounted.used (.ofNat n)
      (by rwa [NodeId.toNat_ofNat (small below), ← List.mem_range])).resolve_left (by simp [none])
    by_contra absent
    rw [contents, Entries.mem_contents_live, Entries.lookup_isNone.mpr absent] at live
    cases live
  have distinct : ((List.range g.next).map NodeId.ofNat).Nodup :=
    List.nodup_range.map_on fun m hm n hn same => by
      rw [← NodeId.toNat_ofNat (small hm), same, NodeId.toNat_ofNat (small hn)]
  simpa using (distinct.subperm sub).length_le

theorem Accounted.of_same (accounted : g.Accounted) (valid : g'.Valid) (free : g'.free = g.free)
    (next : g'.next = g.next) (live : g'.contents.live = g.contents.live) : g'.Accounted where
  toValid := valid
  used id below := by
    rw [free, live]
    exact accounted.used id (next ▸ below)
  next_le := next ▸ accounted.next_le

theorem addNode_ok {node : Node} {id : NodeId} (added : g.addNode node = .ok (id, g')) :
    id = g.nextId ∧ g.enterKey g.nextId node = .ok g'.index ∧
      g'.nodes = placed g.nextId { node := node } g.nodes ∧ g'.edges = g.edges ∧
      g'.free = g.free.tail ∧ g'.next = if g.free = [] then g.next + 1 else g.next := by
  rw [addNode] at added
  obtain ⟨index, entered, added⟩ := bind_eq_ok.mp added
  cases free : g.free with
  | nil =>
      simp only [free] at added
      cases added
      exact ⟨rfl, entered, rfl, rfl, rfl, rfl⟩
  | cons head rest =>
      simp only [free] at added
      cases added
      exact ⟨rfl, entered, rfl, rfl, rfl, rfl⟩

/-- A node is added or refused because its key is taken. -/
theorem addNode_cases (valid : g.Valid) (room : g.HasRoom) (node : Node) :
    (∃ key id, node.key? = some key ∧ id ∈ g.contents.keyed key ∧
      g.addNode node = .error (.duplicateKey key.canonical)) ∨
    (∀ key, node.key? = some key → g.contents.keyed key = ∅) ∧
      ∃ g', g.addNode node = .ok (g.nextId, g') ∧ g'.Valid ∧
        g'.contents = g.contents.insert g.nextId node := by
  by_cases taken : ∃ key, node.key? = some key ∧ (g.contents.keyed key).Nonempty
  · obtain ⟨key, own, id, held⟩ := taken
    exact Or.inl ⟨key, id, own, held, addNode_taken valid own ⟨id, held⟩⟩
  · have unkeyed (key : NodeKey) (own : node.key? = some key) : g.contents.keyed key = ∅ :=
      Set.not_nonempty_iff_eq_empty.mp fun held => taken ⟨key, own, held⟩
    obtain ⟨g', added, valid', holds, -⟩ := addNode_eq valid room unkeyed
    exact Or.inr ⟨unkeyed, g', added, valid', holds⟩

theorem Accounted.used_next (accounted : g.Accounted) {id : NodeId}
    (below : id.toNat < if g.free = [] then g.next + 1 else g.next) :
    id ∈ g.free.tail ∨ id = g.nextId ∨ id ∈ g.contents.live := by
  cases h : g.free with
  | nil =>
      rw [if_pos h] at below
      rcases Nat.lt_succ_iff_lt_or_eq.mp below with below | last
      · have old := accounted.used id below
        rw [h] at old
        exact Or.inr (Or.inr (old.resolve_left List.not_mem_nil))
      · refine Or.inr (Or.inl ?_)
        rw [nextId, h, List.headD_nil, ← last, NodeId.ofNat_toNat]
  | cons head rest =>
      rw [if_neg (h ▸ List.cons_ne_nil head rest)] at below
      rcases accounted.used id below with old | old
      · rw [h] at old
        rcases List.mem_cons.mp old with rfl | old
        · exact Or.inr (Or.inl (by rw [nextId, h, List.headD_cons]))
        · exact Or.inl old
      · exact Or.inr (Or.inr old)

theorem Accounted.add (accounted : g.Accounted) (spare : g.HasSpare) (node : Node) :
    (g.after (g.addNode node)).Accounted := by
  have room := accounted.hasRoom spare
  rcases addNode_cases accounted.toValid room node with ⟨key, id, _, _, refused⟩ |
    ⟨_, g', added, valid', holds⟩
  · rw [refused, after_error]
    exact accounted
  · obtain ⟨-, -, -, -, free, next⟩ := addNode_ok added
    rw [added, after_ok]
    refine ⟨valid', fun id below => ?_, ?_⟩
    · rw [free, holds, Contents.live_insert]
      exact accounted.used_next (next ▸ below)
    · rw [next]
      split
      · rename_i none
        exact room none
      · exact accounted.next_le

theorem Accounted.removeKind (accounted : g.Accounted) (kind : NodeKind) :
    (g.removeKind kind).2.Accounted where
  toValid := accounted.toValid.removeKind kind
  used id below := by
    rw [contents_removeKind accounted.toValid]
    change id ∈ (g.nodesOfKind kind).reverse ++ g.free ∨ _
    rw [List.mem_append, List.mem_reverse, removed_ids accounted.toValid]
    rcases accounted.used id below with free | ⟨node, found⟩
    · exact Or.inl (Or.inr free)
    · by_cases own : node.kind = kind
      · exact Or.inl (Or.inl ⟨node, found, own⟩)
      · exact Or.inr ⟨node, Contents.without_node? found own⟩
  next_le := accounted.next_le

theorem node_eq_ok {id : NodeId} {node : Node} :
    g.node id = .ok node ↔ g.contents.node? id = some node := by
  rw [node_eq]
  cases g.contents.node? id <;> simp

theorem addEdge_ok {e : Edge} {isNew : Bool} (added : g.addEdge e = .ok (isNew, g')) :
    (∃ source target, g.contents.node? e.source = some source ∧
      g.contents.node? e.target = some target ∧
        e.relation.permits source.kind target.kind = true) ∧
    ∃ edges, g' = { g with edges := edges } := by
  rw [addEdge, bind_eq_ok] at added
  obtain ⟨source, hs, added⟩ := added
  obtain ⟨target, ht, added⟩ := bind_eq_ok.mp added
  obtain ⟨⟨⟩, checked, added⟩ := bind_eq_ok.mp added
  have permitted : e.relation.permits source.kind target.kind = true := by
    by_contra refused
    rw [Relation.check, if_neg refused] at checked
    cases checked
  refine ⟨⟨source, target, node_eq_ok.mp hs, node_eq_ok.mp ht, permitted⟩, ?_⟩
  split at added
  · cases added
    exact ⟨g.edges, rfl⟩
  · cases added
    exact ⟨_, rfl⟩

theorem Accounted.linked (accounted : g.Accounted) {e : Edge} {isNew : Bool}
    (added : g.addEdge e = .ok (isNew, g')) : g'.Accounted := by
  obtain ⟨⟨source, target, hs, ht, permitted⟩, edges, rfl⟩ := addEdge_ok added
  obtain ⟨g', added', valid, -, -⟩ := addEdge_eq accounted.toValid hs ht permitted
  rw [added] at added'
  cases added'
  exact accounted.of_same valid rfl rfl rfl

theorem Accounted.link (accounted : g.Accounted) (e : Edge) :
    (g.after (g.addEdge e)).Accounted := by
  cases added : g.addEdge e with
  | error error => exact accounted
  | ok result => exact accounted.linked added

theorem Accounted.mark (accounted : g.Accounted) (ids : List NodeId) :
    (g.after (g.setMarks ids)).Accounted := by
  cases missing : ids.find? fun id => !g.contains id with
  | some id =>
      rw [setMarks_eq_error missing, after_error]
      exact accounted
  | none =>
      have existing (id : NodeId) (mem : id ∈ ids) : id ∈ g.contents.live := by
        have found := List.find?_eq_none.mp missing id mem
        rwa [Bool.not_eq_true', Bool.not_eq_false, contains_iff] at found
      rw [setMarks_eq accounted.toValid existing, after_ok]
      refine accounted.of_same (accounted.toValid.setMarks existing) rfl rfl ?_
      rw [contents_setMarks existing, Contents.mark_live]

theorem Accounted.clearMarks (accounted : g.Accounted) : g.clearMarks.2.Accounted := by
  rw [clearMarks_eq accounted.toValid]
  refine accounted.of_same accounted.toValid.clearMarks rfl rfl ?_
  rw [contents_clearMarks]
  rfl

theorem Accounted.edited (accounted : g.Accounted) (edit : Edit)
    (spare : ∀ node, edit = .add node → g.HasSpare) : (g.edited edit).Accounted := by
  cases edit with
  | add node => exact accounted.add (spare node rfl) node
  | removeKind kind => exact accounted.removeKind kind
  | link e => exact accounted.link e
  | mark ids => exact accounted.mark ids
  | clearMarks => exact accounted.clearMarks

theorem placeRecord_ok (valid : g.Valid) {id : NodeId} {record : NodeRecord}
    (placed : g.placeRecord id record = .ok g') :
    (∀ key, record.node.key? = some key → g.contents.keyed key = ∅) ∧
      g.enterKey id record.node = .ok g'.index ∧
      g'.free = ((List.range' g.next (id.toNat - g.next)).map NodeId.ofNat).reverse ++ g.free := by
  rw [placeRecord] at placed
  obtain ⟨index, entered, placed⟩ := bind_eq_ok.mp placed
  cases placed
  refine ⟨fun key own => ?_, entered, rfl⟩
  rw [Set.eq_empty_iff_forall_notMem]
  intro other held
  have known : g.index.lookup key.canonical = some other :=
    (valid.index _ _).mpr ⟨key, held, rfl⟩
  simp [enterKey, own, known] at entered

theorem Accounted.place (accounted : g.Accounted) {id : NodeId} {record : NodeRecord}
    (beyond : g.next ≤ id.toNat) (placed : g.placeRecord id record = .ok g') :
    g'.Accounted ∧ g'.next = id.toNat + 1 := by
  obtain ⟨unkeyed, -, free⟩ := placeRecord_ok accounted.toValid placed
  obtain ⟨g'', placed', valid, nodes, -, next⟩ :=
    placeRecord_eq accounted.toValid beyond unkeyed
  rw [placed] at placed'
  cases placed'
  have live (other : NodeId) : other ∈ g'.contents.live ↔
      other ∈ g.contents.live ∨ other = id := by
    rw [contents, contents, Entries.mem_contents_live, Entries.mem_contents_live, nodes,
      List.lookup_append]
    by_cases same : other = id <;> simp [same, Entries.lookup_cons]
  refine ⟨⟨valid, fun other below => ?_, next ▸ id.toNat_lt⟩, next⟩
  rw [next] at below
  rw [free, List.mem_append, mem_gaps, live]
  by_cases old : other.toNat < g.next
  · rcases accounted.used other old with mem | mem
    · exact Or.inl (Or.inr mem)
    · exact Or.inr (Or.inl mem)
  · rcases Nat.lt_succ_iff_lt_or_eq.mp below with between | last
    · exact Or.inl (Or.inl ⟨not_lt.mp old, between⟩)
    · exact Or.inr (Or.inr (NodeId.toNat_inj.mp last))

/-- What placing a record beyond all others makes of a graph and the records to come, placing them
all by ascending identifier does. -/
theorem places_induct {P : Entries → DependencyGraph → Prop}
    (step : ∀ {g g' : DependencyGraph} {entry : NodeId × NodeRecord} {rest : Entries},
      P (entry :: rest) g → g.next ≤ entry.1.toNat →
        g.placeRecord entry.1 entry.2 = .ok g' →
        P rest g' ∧ g'.next = entry.1.toNat + 1)
    {rest : Entries} (start : P rest g) (ascending : rest.Ascending)
    (beyond : ∀ entry ∈ rest, g.next ≤ entry.1.toNat)
    (placed : rest.foldlM (fun g entry => g.placeRecord entry.1 entry.2) g = .ok g') : P [] g' := by
  induction rest generalizing g with
  | nil =>
      cases placed
      exact start
  | cons entry rest ih =>
      obtain ⟨above, ascending⟩ := List.pairwise_cons.mp ascending
      rw [List.foldlM_cons, bind_eq_ok] at placed
      obtain ⟨g₁, first, placed⟩ := placed
      obtain ⟨next, number⟩ := step start (beyond entry List.mem_cons_self) first
      refine ih next ascending (fun later mem => ?_) placed
      rw [number]
      exact above later.1 (List.mem_map_of_mem mem)

theorem Accounted.places {rest : Entries} (accounted : g.Accounted) (ascending : rest.Ascending)
    (beyond : ∀ entry ∈ rest, g.next ≤ entry.1.toNat)
    (placed : rest.foldlM (fun g entry => g.placeRecord entry.1 entry.2) g = .ok g') :
    g'.Accounted :=
  places_induct (P := fun _ g => g.Accounted) (fun accounted => accounted.place) accounted ascending
    beyond placed

theorem Accounted.links {edges : List Edge} (accounted : g.Accounted)
    (added : edges.foldlM (fun g e => Prod.snd <$> g.addEdge e) g = .ok g') : g'.Accounted := by
  induction edges generalizing g with
  | nil =>
      cases added
      exact accounted
  | cons e edges ih =>
      rw [List.foldlM_cons, bind_eq_ok] at added
      obtain ⟨g₁, linked, added⟩ := added
      obtain ⟨⟨_, _⟩, first, rfl⟩ := map_eq_ok.mp linked
      exact ih (accounted.linked first) added

theorem sorted_ascending {records : Entries} (distinct : (records.map Prod.fst).Nodup) :
    Entries.Ascending (records.mergeSort fun a b => decide (a.1 ≤ b.1)) := by
  have sorted : (records.mergeSort fun a b => decide (a.1 ≤ b.1)).Pairwise fun a b =>
      a.1 ≤ b.1 := by
    refine (List.pairwise_mergeSort ?_ ?_ records).imp fun h => of_decide_eq_true h
    · intro a b c hab hbc
      exact decide_eq_true ((of_decide_eq_true hab).trans (of_decide_eq_true hbc))
    · intro a b
      simpa using le_total a.1 b.1
  have nodup : ((records.mergeSort fun a b => decide (a.1 ≤ b.1)).map Prod.fst).Nodup :=
    ((List.mergeSort_perm records _).map Prod.fst).nodup_iff.mpr distinct
  rw [Entries.Ascending, List.pairwise_map]
  rw [List.Nodup, List.pairwise_map] at nodup
  exact sorted.imp₂ (fun _ _ le ne => lt_of_le_of_ne le ne) nodup

theorem ofParts_accounted {records : Entries} {edges : List Edge}
    (distinct : (records.map Prod.fst).Nodup) (built : ofParts records edges = .ok g) :
    g.Accounted := by
  rw [ofParts] at built
  obtain ⟨base, placed, built⟩ := bind_eq_ok.mp built
  have accounted := empty_accounted.places (sorted_ascending distinct)
    (fun _ _ => Nat.zero_le _) placed
  exact accounted.links built

theorem Reachable.accounted (reachable : g.Reachable) : g.Accounted := by
  induction reachable with
  | empty => exact empty_accounted
  | ofParts distinct built => exact ofParts_accounted distinct built
  | edited edit spare _ ih => exact ih.edited edit spare

/-- An answer that lists the identifiers with a property, strictly ascending. -/
def Lists (answer : Except GraphError (List NodeId)) (p : NodeId → Prop) : Prop :=
  ∃ ids, answer = .ok ids ∧ ids.Pairwise (· < ·) ∧ ∀ id, id ∈ ids ↔ p id

/-- A graph with one more node. The node is new, without a mark and without edges, and
everything else is as it was. -/
structure Gains (g : DependencyGraph) (id : NodeId) (node : Node) (g' : DependencyGraph) :
    Prop where
  fresh : g.contains id = false
  record : g'.record? id = some { node := node, marked := false }
  alone : ∀ e ∈ g'.edges, e.source ≠ id ∧ e.target ≠ id
  others : ∀ other, other ≠ id → g'.record? other = g.record? other
  edges : g'.edges = g.edges

/-- The parts of a graph agree with each other, and a new node agrees with them. -/
structure Coherent (g : DependencyGraph) : Prop where
  find : ∀ key id, g.find? key = some id ↔ ∃ node, g.node id = .ok node ∧
    node.key? = some key
  keys : ∀ a b node other, g.node a = .ok node → g.node b = .ok other → node.key?.isSome →
    node.key? = other.key? → a = b
  distinct : g.edges.Nodup
  permitted : ∀ e ∈ g.edges, ∃ source target, g.node e.source = .ok source ∧
    g.node e.target = .ok target ∧ e.relation.permits source.kind target.kind = true
  targets : ∀ id relation, g.contains id = true →
    Lists (g.targets id relation) fun target => ⟨id, relation, target⟩ ∈ g.edges
  sources : ∀ id relation, g.contains id = true →
    Lists (g.sources id relation) fun source => ⟨source, relation, id⟩ ∈ g.edges
  missing : ∀ id relation, g.contains id = false →
    g.targets id relation = .error (.nodeNotFound id) ∧
      g.sources id relation = .error (.nodeNotFound id)
  add : ∀ node, g.HasSpare →
    (∃ key id, node.key? = some key ∧ g.find? key = some id ∧
      g.addNode node = .error (.duplicateKey key.canonical)) ∨
    (∀ key, node.key? = some key → g.find? key = none) ∧
      ∃ id g', g.addNode node = .ok (id, g') ∧ g.Gains id node g'

theorem contains_eq_false {id : NodeId} : g.contains id = false ↔ g.contents.node? id = none := by
  rw [← Contents.not_mem_live, ← contains_iff, Bool.not_eq_true]

theorem lists_listed (ids : Set NodeId) : Lists (.ok (NodeId.listed ids)) fun id => id ∈ ids :=
  ⟨_, rfl, NodeId.listed_pairwise ids, fun _ => NodeId.mem_listed⟩

theorem Valid.find?_iff (valid : g.Valid) (key : NodeKey) (id : NodeId) :
    g.find? key = some id ↔ ∃ node, g.node id = .ok node ∧ node.key? = some key := by
  rw [find?_eq valid, valid.contents.find?_eq_some]
  exact exists_congr fun node => and_congr_left fun _ => node_eq_ok.symm

theorem Accounted.gains (accounted : g.Accounted) (room : g.HasRoom) {node : Node}
    (added : g.addNode node = .ok (g.nextId, g')) : g.Gains g.nextId node g' := by
  obtain ⟨-, -, nodes, edges, -, -⟩ := addNode_ok added
  have fresh := nextId_fresh accounted.toValid room
  refine ⟨contains_eq_false.mpr fresh, ?_, fun e mem => ?_, fun other ne => ?_, edges⟩
  · rw [record?, nodes, Entries.lookup_placed, if_pos rfl]
  · rw [edges] at mem
    obtain ⟨source, target, hs, ht, -⟩ := accounted.contents.permitted e mem
    constructor
    · intro same
      rw [same, fresh] at hs
      cases hs
    · intro same
      rw [same, fresh] at ht
      cases ht
  · rw [record?, nodes, Entries.lookup_placed, if_neg ne, record?]

theorem Accounted.coherent (accounted : g.Accounted) : g.Coherent where
  find := accounted.toValid.find?_iff
  keys a b node other ha hb keyed same := by
    obtain ⟨key, own⟩ := Option.isSome_iff_exists.mp keyed
    exact accounted.contents.key_unique key ⟨node, node_eq_ok.mp ha, own⟩
      ⟨other, node_eq_ok.mp hb, same ▸ own⟩
  distinct := accounted.ordered.nodup
  permitted e mem := by
    obtain ⟨source, target, hs, ht, permitted⟩ := accounted.contents.permitted e mem
    exact ⟨source, target, node_eq_ok.mpr hs, node_eq_ok.mpr ht, permitted⟩
  targets id relation live := by
    obtain ⟨node, found⟩ := (contains_iff id).mp live
    rw [targets_eq accounted.toValid, found]
    exact lists_listed _
  sources id relation live := by
    obtain ⟨node, found⟩ := (contains_iff id).mp live
    rw [sources_eq accounted.toValid, found]
    exact lists_listed _
  missing id relation dead := by
    rw [targets_eq accounted.toValid, sources_eq accounted.toValid, contains_eq_false.mp dead]
    exact ⟨rfl, rfl⟩
  add node spare := by
    have room := accounted.hasRoom spare
    rcases addNode_cases accounted.toValid room node with ⟨key, id, own, held, refused⟩ |
      ⟨unkeyed, g', added, -, -⟩
    · refine Or.inl ⟨key, id, own, ?_, refused⟩
      rw [find?_eq accounted.toValid, accounted.contents.find?_eq_some]
      exact held
    · refine Or.inr ⟨fun key own => ?_, g.nextId, g', added, accounted.gains room added⟩
      rw [find?_eq accounted.toValid, Contents.find?_eq_none]
      exact unkeyed key own

theorem reachable_coherent (reachable : g.Reachable) : g.Coherent :=
  reachable.accounted.coherent

/-- The next node takes over the identifier of a node that was marked and removed. -/
theorem reachable_coherent_of_removed :
    let g := [Edit.add (.system "shop"), .add .binding, .mark [NodeId.ofNat 0],
      .removeKind .system].foldl
      DependencyGraph.edited .empty
    g.nextId = NodeId.ofNat 0 ∧ g.Coherent := by
  refine ⟨by decide, reachable_coherent ?_⟩
  refine .edited (.removeKind .system) nofun (.edited (.mark [NodeId.ofNat 0]) nofun ?_)
  refine .edited (.add .binding) ?_ (.edited (.add (.system "shop")) ?_ .empty)
  · exact fun _ _ => ⟨NodeId.ofNat 1, by decide⟩
  · exact fun _ _ => ⟨NodeId.ofNat 0, by decide⟩

end BlastRadius.DependencyGraph
