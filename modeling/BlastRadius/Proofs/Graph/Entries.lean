import BlastRadius.Proofs.Store.Contents

/-!
Lists of records by ascending identifier and lists of edges in order, the data that both stores are
made of. What is read from such a list is the ascending list of a set of its contents, and what is
done to it is done to its contents.
-/

namespace BlastRadius

theorem eq_of_ascending {α κ : Type} [Preorder κ] (key : α → κ) {l l' : List α}
    (sorted : l.Pairwise fun a b => key a < key b) (sorted' : l'.Pairwise fun a b => key a < key b)
    (mem : ∀ a, a ∈ l ↔ a ∈ l') : l = l' := by
  have nodup {l : List α} (sorted : l.Pairwise fun a b => key a < key b) : l.Nodup :=
    sorted.imp fun lt => ne_of_apply_ne key lt.ne
  apply List.Perm.eq_of_pairwise (fun a b _ _ lt gt => absurd gt lt.asymm) sorted sorted'
  exact (List.perm_ext_iff_of_nodup (nodup sorted) (nodup sorted')).mpr mem

/-- Records, each with its identifier. -/
abbrev Entries := List (NodeId × NodeRecord)

namespace Entries

/-- The identifiers are ascending, each at one place. -/
def Ascending (entries : Entries) : Prop := (entries.map Prod.fst).Pairwise (· < ·)

def contents (entries : Entries) (edges : List Edge) : Contents where
  node? id := (entries.lookup id).map NodeRecord.node
  edges := {e | e ∈ edges}
  marked := {id | ∃ record, entries.lookup id = some record ∧ record.marked}

variable {entries : Entries} {edges : List Edge}

theorem lookup_cons (entry : NodeId × NodeRecord) (rest : Entries) (id : NodeId) :
    List.lookup id (entry :: rest) = if id = entry.1 then some entry.2 else rest.lookup id := by
  rw [List.lookup_cons]
  by_cases h : id = entry.1
  · simp [h]
  · simp [h, beq_eq_false_iff_ne.mpr h]

theorem lookup_eq_some (ascending : entries.Ascending) {id : NodeId} {record : NodeRecord} :
    entries.lookup id = some record ↔ (id, record) ∈ entries := by
  induction entries with
  | nil => simp
  | cons entry rest ih =>
      obtain ⟨above, restAscending⟩ := List.pairwise_cons.mp ascending
      obtain ⟨first, own⟩ := entry
      rw [lookup_cons, List.mem_cons]
      by_cases h : id = first
      · subst h
        have absent : (id, record) ∉ rest := fun mem =>
          lt_irrefl id (above id (List.mem_map_of_mem mem))
        simp [absent, eq_comm]
      · simp [h, ih restAscending]

theorem lookup_isNone {id : NodeId} : entries.lookup id = none ↔ id ∉ entries.map Prod.fst := by
  induction entries with
  | nil => simp
  | cons entry rest ih =>
      rw [lookup_cons]
      by_cases h : id = entry.1 <;> simp [h, ih]

@[simp] theorem contents_node? (id : NodeId) :
    (entries.contents edges).node? id = (entries.lookup id).map NodeRecord.node := rfl

@[simp] theorem mem_contents_edges {e : Edge} :
    e ∈ (entries.contents edges).edges ↔ e ∈ edges :=
  Iff.rfl

theorem mem_contents_live {id : NodeId} :
    id ∈ (entries.contents edges).live ↔ (entries.lookup id).isSome := by
  simp [Contents.live, Option.isSome_iff_exists]

theorem mem_contents_marked {id : NodeId} :
    id ∈ (entries.contents edges).marked ↔
      ∃ record, entries.lookup id = some record ∧ record.marked := Iff.rfl

theorem mem_contents_ofKind {id : NodeId} {kind : NodeKind} :
    id ∈ (entries.contents edges).ofKind kind ↔
      ∃ record, entries.lookup id = some record ∧ record.node.kind = kind := by
  simp [Contents.ofKind]

theorem contents_marked_live :
    (entries.contents edges).marked ⊆ (entries.contents edges).live :=
  fun _ ⟨_, h, _⟩ => mem_contents_live.mpr (Option.isSome_iff_exists.mpr ⟨_, h⟩)

/-- The contents determine the records. -/
theorem eq_of_contents {others : Entries} {links : List Edge} (ascending : entries.Ascending)
    (ascending' : others.Ascending) (same : entries.contents edges = others.contents links) :
    entries = others := by
  have lookup (id : NodeId) : entries.lookup id = others.lookup id := by
    have node := congrFun (congrArg Contents.node? same) id
    have marked := Set.ext_iff.mp (congrArg Contents.marked same) id
    rw [mem_contents_marked, mem_contents_marked] at marked
    rw [contents_node?, contents_node?] at node
    cases here : entries.lookup id with
    | none =>
        rw [here, Option.map_none] at node
        exact (Option.map_eq_none_iff.mp node.symm).symm
    | some record =>
        rw [here, Option.map_some] at node
        obtain ⟨other, there, own⟩ := Option.map_eq_some_iff.mp node.symm
        rw [here, there] at marked
        have mark : record.marked = other.marked := by
          rw [Bool.eq_iff_iff]
          simpa using marked
        obtain ⟨node, _⟩ := record
        obtain ⟨_, _⟩ := other
        cases own
        cases mark
        exact there.symm
  refine eq_of_ascending Prod.fst (List.pairwise_map.mp ascending)
    (List.pairwise_map.mp ascending') ?_
  rintro ⟨id, record⟩
  rw [← lookup_eq_some ascending, ← lookup_eq_some ascending', lookup]

theorem filter_ascending (ascending : entries.Ascending) (p : NodeId × NodeRecord → Bool) :
    Ascending (entries.filter p) :=
  List.Pairwise.sublist (List.filter_sublist.map Prod.fst) ascending

theorem map_fst_filter (ascending : entries.Ascending) (p : NodeId × NodeRecord → Bool) :
    (entries.filter p).map Prod.fst =
      NodeId.listed {id | ∃ record, entries.lookup id = some record ∧ p (id, record)} := by
  refine NodeId.eq_listed (filter_ascending ascending p) fun id => ?_
  simp [lookup_eq_some ascending]

theorem length_filter (ascending : entries.Ascending) (p : NodeId × NodeRecord → Bool) :
    (entries.filter p).length =
      {id | ∃ record, entries.lookup id = some record ∧ p (id, record)}.ncard := by
  rw [← List.length_map (f := Prod.fst), map_fst_filter ascending, NodeId.length_listed]

theorem lookup_filter (ascending : entries.Ascending) (p : NodeId × NodeRecord → Bool)
    (id : NodeId) :
    (entries.filter p).lookup id = (entries.lookup id).filter fun record => p (id, record) := by
  apply Option.ext
  intro record
  rw [lookup_eq_some (filter_ascending ascending p), List.mem_filter, Option.filter_eq_some_iff,
    lookup_eq_some ascending]

theorem map_ascending (ascending : entries.Ascending)
    {f : NodeId × NodeRecord → NodeId × NodeRecord}
    (key : ∀ entry, (f entry).1 = entry.1) : Ascending (entries.map f) := by
  have keys : (entries.map f).map Prod.fst = entries.map Prod.fst := by
    simp [Function.comp_def, key]
  rw [Ascending, keys]
  exact ascending

theorem lookup_map {f : NodeId × NodeRecord → NodeId × NodeRecord}
    (key : ∀ entry, (f entry).1 = entry.1) (id : NodeId) :
    List.lookup id (entries.map f) = (entries.lookup id).map fun record => (f (id, record)).2 := by
  induction entries with
  | nil => rfl
  | cons entry rest ih =>
      rw [List.map_cons, lookup_cons, lookup_cons, ih, key]
      by_cases h : id = entry.1 <;> simp [h]

/-- Marks the record of an entry if its identifier is listed. -/
def markListed (ids : List NodeId) (entry : NodeId × NodeRecord) : NodeId × NodeRecord :=
  if ids.contains entry.1 then (entry.1, { entry.2 with marked := true }) else entry

def unmark (entry : NodeId × NodeRecord) : NodeId × NodeRecord :=
  (entry.1, { entry.2 with marked := false })

theorem markListed_fst (ids : List NodeId) (entry : NodeId × NodeRecord) :
    (markListed ids entry).1 = entry.1 := by
  rw [markListed]
  split <;> rfl

theorem contents_mark {ids : List NodeId}
    (existing : ∀ id ∈ ids, id ∈ (entries.contents edges).live) :
    Entries.contents (entries.map (markListed ids)) edges =
      (entries.contents edges).mark {id | id ∈ ids} := by
  ext id
  · rw [contents_node?, lookup_map (markListed_fst ids), Option.map_map, Contents.mark_node?,
      contents_node?]
    congr! 2
    funext record
    simp only [Function.comp_apply, markListed]
    split <;> rfl
  · rfl
  · rw [mem_contents_marked, lookup_map (markListed_fst ids), Contents.mark_marked, Set.mem_union,
      mem_contents_marked, Set.mem_ofPred_eq]
    by_cases listed : id ∈ ids
    · obtain ⟨record, found⟩ :=
        Option.isSome_iff_exists.mp (mem_contents_live.mp (existing id listed))
      simp [markListed, listed, found]
    · simp [markListed, listed]

theorem length_newly (ascending : entries.Ascending) {ids : List NodeId}
    (existing : ∀ id ∈ ids, id ∈ (entries.contents edges).live) :
    (entries.filter fun entry => !entry.2.marked && ids.contains entry.1).length =
      ({id | id ∈ ids} \ (entries.contents edges).marked).ncard := by
  rw [length_filter ascending]
  congr 1
  ext id
  simp only [Bool.and_eq_true, Bool.not_eq_true', List.contains_iff_mem, Set.mem_sdiff,
    Set.mem_ofPred_eq, mem_contents_marked]
  constructor
  · rintro ⟨record, found, unmarked, listed⟩
    simp [listed, found, unmarked]
  · rintro ⟨listed, unmarked⟩
    obtain ⟨record, found⟩ :=
      Option.isSome_iff_exists.mp (mem_contents_live.mp (existing id listed))
    exact ⟨record, found, by simpa [found] using unmarked, listed⟩

theorem contents_unmarked :
    Entries.contents (entries.map unmark) edges = (entries.contents edges).unmarked := by
  ext id
  · rw [contents_node?, lookup_map (f := unmark) fun _ => rfl, Option.map_map]
    rfl
  · rfl
  · rw [mem_contents_marked, lookup_map (f := unmark) fun _ => rfl]
    simp [Contents.unmarked, unmark]

theorem length_marked (ascending : entries.Ascending) :
    (entries.filter fun entry => entry.2.marked).length =
      (entries.contents edges).marked.ncard := by
  rw [length_filter ascending]
  rfl

theorem lookup_placed (id : NodeId) (record : NodeRecord) (other : NodeId) :
    (DependencyGraph.placed id record entries).lookup other =
      if other = id then some record else entries.lookup other := by
  induction entries with
  | nil => simp [DependencyGraph.placed, lookup_cons]
  | cons entry rest ih =>
      rw [DependencyGraph.placed]
      split
      · rename_i below
        rw [lookup_cons, lookup_cons, ih]
        by_cases h : other = entry.1
        · have ne : other ≠ id := by
            rintro rfl
            exact lt_irrefl other (h ▸ below)
          simp only [h, ↓reduceIte, h ▸ ne]
        · simp only [h, ↓reduceIte]
      · rw [lookup_cons]

theorem placed_ascending (ascending : entries.Ascending) {id : NodeId} (record : NodeRecord)
    (fresh : entries.lookup id = none) : Ascending (DependencyGraph.placed id record entries) := by
  induction entries with
  | nil => simp [DependencyGraph.placed, Ascending]
  | cons entry rest ih =>
      obtain ⟨above, restAscending⟩ := List.pairwise_cons.mp ascending
      have absent : id ∉ entry.1 :: rest.map Prod.fst := lookup_isNone.mp fresh
      rw [List.mem_cons, not_or] at absent
      rw [DependencyGraph.placed]
      split
      · rename_i below
        refine List.pairwise_cons.mpr ⟨fun key mem => ?_,
          ih restAscending (lookup_isNone.mpr absent.2)⟩
        have found : (DependencyGraph.placed id record rest).lookup key ≠ none := by
          rw [Ne, lookup_isNone]
          exact fun missing => missing mem
        rw [lookup_placed] at found
        split at found
        · rename_i eq
          exact eq ▸ below
        · rw [Ne, lookup_isNone, not_not] at found
          exact above key found
      · rename_i notBelow
        have below : id < entry.1 := lt_of_le_of_ne (not_lt.mp notBelow) absent.1
        refine List.pairwise_cons.mpr ⟨fun key mem => ?_, ascending⟩
        rcases List.mem_cons.mp mem with rfl | mem
        · exact below
        · exact below.trans (above key mem)

theorem contents_placed {id : NodeId} {node : Node} (fresh : entries.lookup id = none) :
    Entries.contents (DependencyGraph.placed id { node := node } entries) edges =
      (entries.contents edges).insert id node := by
  ext other
  · rw [contents_node?, lookup_placed]
    by_cases h : other = id <;> simp [h, Contents.insert]
  · rfl
  · rw [mem_contents_marked, lookup_placed]
    by_cases h : other = id <;> simp [h, fresh, Contents.insert, mem_contents_marked]

theorem contents_without (ascending : entries.Ascending) (kind : NodeKind) :
    Entries.contents (entries.filter fun entry => !(entry.2.node.kind == kind))
        (edges.filter fun e =>
          !((entries.filter fun entry => entry.2.node.kind == kind).map Prod.fst).contains
            e.source &&
          !((entries.filter fun entry => entry.2.node.kind == kind).map Prod.fst).contains
            e.target) =
      (entries.contents edges).without kind := by
  have gone (id : NodeId) :
      ((entries.filter fun entry => entry.2.node.kind == kind).map Prod.fst).contains id = true ↔
        id ∈ (entries.contents edges).ofKind kind := by
    rw [List.contains_iff_mem, map_fst_filter ascending, NodeId.mem_listed, mem_contents_ofKind]
    simp
  have missing (id : NodeId) :
      (!((entries.filter fun entry => entry.2.node.kind == kind).map Prod.fst).contains id) =
        true ↔
        id ∉ (entries.contents edges).ofKind kind := by
    rw [Bool.not_eq_true', ← Bool.not_eq_true, gone]
  refine Contents.ext (funext fun x => ?_) (Set.ext fun e => ?_) (Set.ext fun x => ?_)
  · rw [contents_node?, lookup_filter ascending]
    cases h : entries.lookup x with
    | none => simp [Contents.without, h]
    | some record => by_cases same : record.node.kind = kind <;>
        simp [Contents.without, h, same, Option.filter_some]
  · rw [mem_contents_edges, List.mem_filter, Bool.and_eq_true, missing, missing]
    rfl
  · rw [mem_contents_marked, lookup_filter ascending]
    simp only [Contents.without, Set.mem_sdiff, mem_contents_marked, mem_contents_ofKind]
    cases h : entries.lookup x with
    | none => simp
    | some record => by_cases same : record.node.kind = kind <;> simp [same]

end Entries

end BlastRadius
