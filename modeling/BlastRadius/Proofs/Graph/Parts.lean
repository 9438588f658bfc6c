import BlastRadius.Proofs.Graph.Changes

/-!
A graph that is built from records and edges is valid and holds what they hold.
-/

namespace BlastRadius.DependencyGraph

variable {g : DependencyGraph}

theorem bind_eq_ok {α β ε : Type} {x : Except ε α} {f : α → Except ε β} {b : β} :
    x >>= f = .ok b ↔ ∃ a, x = .ok a ∧ f a = .ok b := by
  cases x <;> simp [bind, Except.bind]

theorem map_eq_ok {α β ε : Type} {x : Except ε α} {f : α → β} {b : β} :
    f <$> x = .ok b ↔ ∃ a, x = .ok a ∧ f a = b := by
  cases x <;> simp [Functor.map, Except.map]

theorem placed_eq_append {entries : Entries} {id : NodeId} (record : NodeRecord)
    (above : ∀ entry ∈ entries, entry.1 < id) : placed id record entries = entries ++
      [(id, record)] := by
  induction entries with
  | nil => rfl
  | cons entry rest ih =>
      rw [placed, if_pos (above entry List.mem_cons_self),
        ih fun other mem => above other (List.mem_cons_of_mem entry mem)]
      rfl

theorem mem_gaps {next : Nat} {id other : NodeId} :
    other ∈ ((List.range' next (id.toNat - next)).map NodeId.ofNat).reverse ↔
      next ≤ other.toNat ∧ other < id := by
  rw [List.mem_reverse, List.mem_map]
  constructor
  · rintro ⟨n, mem, rfl⟩
    rw [List.mem_range'_1] at mem
    have small : n < NodeId.count := by have := id.toNat_lt; omega
    change _ ∧ (NodeId.ofNat n).toNat < id.toNat
    rw [NodeId.toNat_ofNat small]
    omega
  · rintro ⟨le, lt⟩
    refine ⟨other.toNat, ?_, NodeId.ofNat_toNat other⟩
    change other.toNat < id.toNat at lt
    rw [List.mem_range'_1]
    omega

theorem gaps_nodup (next : Nat) (id : NodeId) :
    ((List.range' next (id.toNat - next)).map NodeId.ofNat).reverse.Nodup := by
  rw [List.nodup_reverse]
  have distinct : (List.range' next (id.toNat - next)).Nodup := List.nodup_range'
  refine List.Nodup.map_on ?_ distinct
  intro a ha b hb same
  rw [List.mem_range'_1] at ha hb
  have bound := id.toNat_lt
  rw [← NodeId.toNat_ofNat (n := a) (by omega), same, NodeId.toNat_ofNat (by omega)]

theorem placeRecord_eq (valid : g.Valid) {id : NodeId} {record : NodeRecord}
    (beyond : g.next ≤ id.toNat)
    (unkeyed : ∀ key, record.node.key? = some key → g.contents.keyed key = ∅) :
    ∃ g', g.placeRecord id record = .ok g' ∧ g'.Valid ∧
      g'.nodes = g.nodes ++ [(id, record)] ∧
      g'.edges = g.edges ∧ g'.next = id.toNat + 1 := by
  have slot : max g.next id.toNat = id.toNat := Nat.max_eq_right beyond
  have dead : id ∉ g.contents.live := fun live => Nat.not_lt.mpr beyond (valid.below id live)
  have fresh : g.contents.node? id = none := Contents.not_mem_live.mp dead
  have above : ∀ entry ∈ g.nodes, entry.1 < id := by
    intro entry mem
    have live : entry.1 ∈ g.contents.live := Entries.mem_contents_live.mpr
      (Option.isSome_iff_exists.mpr ⟨entry.2, (Entries.lookup_eq_some valid.ascending).mpr mem⟩)
    exact (valid.below entry.1 live).trans_le beyond
  have inserted := valid.insert
    (((List.range' g.next (id.toNat - g.next)).map NodeId.ofNat).reverse ++ g.free) fresh unkeyed
    ?_ ?_ (Nat.le_succ_of_le beyond) (Nat.lt_succ_self id.toNat)
  · refine ⟨_, ?_, @Valid.remark _ inserted (placed id record g.nodes) ?_ ?_,
      placed_eq_append record above, rfl, rfl⟩
    · rw [placeRecord, enterKey_eq valid _ unkeyed, slot]
      simp only [NodeId.ofNat_toNat]
      rfl
    · exact Entries.placed_ascending valid.ascending record (Option.map_eq_none_iff.mp fresh)
    · funext other
      change (List.lookup other (placed id record g.nodes)).map _ =
        (List.lookup other (placed id { node := record.node } g.nodes)).map _
      rw [Entries.lookup_placed, Entries.lookup_placed]
      split <;> rfl
  · rw [List.nodup_append']
    refine ⟨gaps_nodup _ _, valid.free_nodup, fun other mem free => ?_⟩
    exact Nat.not_lt.mpr (mem_gaps.mp mem).1 (valid.unused other free).1
  · intro other mem
    rcases List.mem_append.mp mem with mem | mem
    · obtain ⟨le, lt⟩ := mem_gaps.mp mem
      refine ⟨Nat.lt_succ_of_lt lt, fun live => ?_, lt.ne⟩
      exact Nat.not_lt.mpr le (valid.below other live)
    · obtain ⟨below, unused⟩ := valid.unused other mem
      exact ⟨by omega, unused, fun same => by subst same; omega⟩

theorem placeRecords_eq (rest : Entries) (valid : g.Valid) (noEdges : g.edges = [])
    (ascending : Entries.Ascending (g.nodes ++ rest))
    (below : ∀ entry ∈ rest, g.next ≤ entry.1.toNat)
    (unique : ∀ key, ((Entries.contents (g.nodes ++ rest) []).keyed key).Subsingleton) :
    ∃ g', rest.foldlM (fun g entry => g.placeRecord entry.1 entry.2) g = .ok g' ∧ g'.Valid ∧
      g'.nodes = g.nodes ++ rest ∧ g'.edges = [] := by
  induction rest generalizing g with
  | nil => exact ⟨g, rfl, valid, (List.append_nil _).symm, noEdges⟩
  | cons entry rest ih =>
      obtain ⟨id, record⟩ := entry
      have found : List.lookup id (g.nodes ++ (id, record) :: rest) = some record :=
        (Entries.lookup_eq_some ascending).mpr (by simp)
      have unkeyed (key : NodeKey) (hkey : record.node.key? = some key) :
          g.contents.keyed key = ∅ := by
        rw [Set.eq_empty_iff_forall_notMem]
        rintro other ⟨node, known, hkey'⟩
        obtain ⟨old, entered, rfl⟩ := Option.map_eq_some_iff.mp known
        have kept : List.lookup other (g.nodes ++ (id, record) :: rest) = some old :=
          (Entries.lookup_eq_some ascending).mpr
            (List.mem_append_left _ ((Entries.lookup_eq_some valid.ascending).mp entered))
        obtain rfl : other = id := unique key
          ⟨old.node, by rw [Entries.contents_node?, kept]; rfl, hkey'⟩
          ⟨record.node, by rw [Entries.contents_node?, found]; rfl, hkey⟩
        have live : other ∈ g.contents.live := Contents.mem_live known
        exact Nat.not_lt.mpr (below (other, record) List.mem_cons_self) (valid.below other live)
      obtain ⟨g₁, placed, valid₁, nodes₁, edges₁, next₁⟩ :=
        placeRecord_eq valid (below (id, record) List.mem_cons_self) unkeyed
      have order : g₁.nodes ++ rest = g.nodes ++ (id, record) :: rest := by
        rw [nodes₁, List.append_assoc, List.singleton_append]
      have below₁ (later : NodeId × NodeRecord) (mem : later ∈ rest) :
          g₁.next ≤ later.1.toNat := by
        rw [Entries.Ascending, List.map_append, List.pairwise_append] at ascending
        rw [next₁]
        exact (List.pairwise_cons.mp ascending.2.1).1 later.1 (List.mem_map_of_mem mem)
      obtain ⟨g', folded, valid', nodes', edges'⟩ := ih valid₁ (edges₁.trans noEdges)
        (order ▸ ascending) below₁ (order ▸ unique)
      exact ⟨g', by rw [List.foldlM_cons, placed]; exact folded, valid',
        nodes'.trans order, edges'⟩

theorem addEdges_eq (edges : List Edge) (valid : g.Valid)
    (permitted : ∀ e ∈ edges, ∃ source target, g.contents.node? e.source = some source ∧
      g.contents.node? e.target = some target ∧ e.relation.permits source.kind target.kind) :
    ∃ g', edges.foldlM (fun g e => Prod.snd <$> g.addEdge e) g = .ok g' ∧ g'.Valid ∧
      g'.contents.node? = g.contents.node? ∧ g'.contents.marked = g.contents.marked ∧
      g'.contents.edges = g.contents.edges ∪ {e | e ∈ edges} := by
  induction edges generalizing g with
  | nil => exact ⟨g, rfl, valid, rfl, rfl, by simp⟩
  | cons e edges ih =>
      obtain ⟨source, target, hs, ht, allowed⟩ := permitted e List.mem_cons_self
      obtain ⟨g₁, added, valid₁, holds, -⟩ := addEdge_eq valid hs ht allowed
      have later (f : Edge) (mem : f ∈ edges) := permitted f (List.mem_cons_of_mem e mem)
      obtain ⟨g', folded, valid', nodes, marked, links⟩ :=
        ih valid₁ (by rw [holds]; exact later)
      refine ⟨g', by rw [List.foldlM_cons, added]; exact folded, valid', ?_, ?_, ?_⟩
      · rw [nodes, holds]
        rfl
      · rw [marked, holds]
        rfl
      · rw [links, holds]
        ext f
        simp only [Contents.link, Set.mem_union, Set.mem_ofPred_eq, List.mem_cons, Set.insert]
        tauto

theorem sorted_eq {entries : Entries} (ascending : entries.Ascending) :
    entries.mergeSort (fun a b => decide (a.1 ≤ b.1)) = entries := by
  apply List.mergeSort_of_pairwise
  rw [Entries.Ascending, List.pairwise_map] at ascending
  exact ascending.imp fun lt => decide_eq_true (le_of_lt lt)

/-- A graph built from ascending records and permitted edges holds just these. -/
theorem ofParts_eq {entries : Entries} {edges : List Edge} (ascending : entries.Ascending)
    (valid : (entries.contents edges).Valid) :
    ∃ g, ofParts entries edges = .ok g ∧ g.Valid ∧ g.contents = entries.contents edges := by
  obtain ⟨base, placed, validBase, nodes, noEdges⟩ := placeRecords_eq (g := empty) entries
    empty_valid rfl ascending (fun _ _ => Nat.zero_le _) valid.key_unique
  have held : base.contents = entries.contents [] := by
    rw [contents, nodes, noEdges]
    rfl
  obtain ⟨g, added, validG, nodes', marked', edges'⟩ := addEdges_eq (g := base) edges validBase
    (by rw [held]; exact valid.permitted)
  refine ⟨g, ?_, validG, ?_⟩
  · rw [ofParts, sorted_eq ascending, placed]
    exact added
  · refine Contents.ext ?_ ?_ ?_
    · rw [nodes', held]
      rfl
    · rw [edges', held]
      ext e
      simp
    · rw [marked', held]
      rfl

end BlastRadius.DependencyGraph
