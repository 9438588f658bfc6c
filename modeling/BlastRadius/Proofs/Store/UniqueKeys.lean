import BlastRadius.Proofs.Store.Reachable

/-!
The unique index. It compares the canonical texts of keys, which are as good as the keys themselves,
so that a node is refused for no other reason than that a node with its key is there.
-/

namespace BlastRadius

theorem DependencyGraph.addNode_error_iff {g : DependencyGraph} (valid : g.Valid) (node : Node)
    (error : GraphError) : g.addNode node = .error error ↔
      ∃ key, node.key? = some key ∧ (g.contents.keyed key).Nonempty ∧
        error = .duplicateKey key.canonical := by
  by_cases taken : ∃ key, node.key? = some key ∧ (g.contents.keyed key).Nonempty
  · obtain ⟨key, own, held⟩ := taken
    rw [addNode_taken valid own held]
    constructor
    · intro same
      exact ⟨key, own, held, (Except.error.inj same).symm⟩
    · rintro ⟨key', own', -, rfl⟩
      rw [Option.some.inj (own.symm.trans own')]
  · have unkeyed (key : NodeKey) (own : node.key? = some key) : g.contents.keyed key = ∅ :=
      Set.not_nonempty_iff_eq_empty.mp fun held => taken ⟨key, own, held⟩
    have added : ∃ result, g.addNode node = .ok result := by
      rw [addNode, enterKey_eq valid g.nextId unkeyed]
      cases g.free <;> exact ⟨_, rfl⟩
    obtain ⟨result, added⟩ := added
    rw [added]
    refine iff_of_false (fun same => by cases same) ?_
    rintro ⟨key, own, held, -⟩
    exact taken ⟨key, own, held⟩

theorem Tables.insertNode_refused_iff (tables : Tables) (node : Node) (text : String) :
    tables.insertNode node = .error (.uniqueViolation text) ↔
      ∃ key, node.key? = some key ∧ key.canonical = text ∧
        tables.keyTaken (some text) = true := by
  rw [insertNode]
  cases own : node.key? with
  | none =>
      refine iff_of_false (fun same => ?_) (by simp)
      rw [Option.map_none, if_neg (by simp [keyTaken])] at same
      cases number : NodeId.ofInt? tables.nextNumber <;> rw [number] at same <;> cases same
  | some key =>
      simp only [Option.map_some, Option.some.injEq, exists_eq_left', Option.getD_some]
      split
      · rename_i taken
        constructor
        · intro same
          obtain rfl := StoreError.uniqueViolation.inj (Except.error.inj same)
          exact ⟨rfl, taken⟩
        · rintro ⟨rfl, -⟩
          rfl
      · rename_i free
        refine iff_of_false (fun same => ?_) ?_
        · cases number : NodeId.ofInt? tables.nextNumber <;> rw [number] at same <;> cases same
        · rintro ⟨rfl, taken⟩
          exact free taken

namespace Medium

variable {medium : Medium} {s : medium.State}

/-- A store refuses a node for its key exactly when it holds a node with that key. -/
theorem insertNode_refused_iff (sound : medium.view.sound s) (node : Node) (text : String) :
    (medium.store.call (.insertNode node) s).1 = .error (.uniqueViolation text) ↔
      ∃ key, node.key? = some key ∧ ((medium.view.holds s).keyed key).Nonempty ∧
        key.canonical = text := by
  cases medium with
  | memory =>
      obtain ⟨graph, snapshots⟩ := s
      have answer : (Memory.call (.insertNode node) ⟨graph, snapshots⟩).1 =
          .error (.uniqueViolation text) ↔ graph.addNode node = .error (.duplicateKey text) := by
        rw [Memory.call]
        rcases graph.addNode node with error | ⟨id, g⟩
        · cases error <;> simp [Memory.change, StoreError.ofGraph]
        · simp [Memory.change]
      refine answer.trans ((DependencyGraph.addNode_error_iff sound node _).trans ?_)
      simp only [GraphError.duplicateKey.injEq, eq_comm]
      rfl
  | database =>
      obtain ⟨tables, savepoints⟩ := s
      obtain ⟨es, ls, rfl, ascending, -, -⟩ := Tables.Valid.exists_written sound
      have answer : (Database.call (.insertNode node) ⟨Tables.written es ls, savepoints⟩).1 =
          .error (.uniqueViolation text) ↔
            (Tables.written es ls).insertNode node = .error (.uniqueViolation text) := by
        rw [Database.call]
        rcases (Tables.written es ls).insertNode node with error | ⟨id, tables⟩ <;>
          simp [Database.change]
      have holds : database.view.holds ⟨Tables.written es ls, savepoints⟩ = es.contents ls :=
        Tables.contents_written
      refine answer.trans ((Tables.insertNode_refused_iff _ node text).trans ?_)
      rw [holds]
      refine exists_congr fun key => and_congr_right fun own => ?_
      have taken : (Tables.written es ls).keyTaken _ = true ↔ _ :=
        Tables.keyTaken_written ascending node
      simp only [own, Option.map_some, Option.some.injEq, exists_eq_left'] at taken
      constructor
      · rintro ⟨rfl, held⟩
        exact ⟨taken.mp held, rfl⟩
      · rintro ⟨held, rfl⟩
        exact ⟨rfl, taken.mpr held⟩

theorem getNode_ok_iff (sound : medium.view.sound s) (id : NodeId) (node : Node) :
    (medium.store.call (.getNode id) s).1 = .ok node ↔
      (medium.view.holds s).node? id = some node := by
  obtain ⟨answer, -, -⟩ := medium.faithful.call_of_determined (q := .getNode id) sound rfl
  rw [answer, Contents.about]
  cases (medium.view.holds s).node? id <;> simp

/-- Keys with the same canonical text are the same key, and so of one kind and with the same parts.
In whatever state a store is, its index refuses a node for a text exactly when that is the text of
the node's key and a node with this key is there. -/
theorem index_compares_keys (medium : Medium) {s : medium.State} (reached : medium.Reachable s) :
    (∀ k l : NodeKey, k.canonical = l.canonical ↔ k = l) ∧
    (∀ k l : NodeKey, k.canonical = l.canonical → k.kind = l.kind ∧ k.parts = l.parts) ∧
    ∀ (node : Node) (text : String),
      (medium.store.call (.insertNode node) s).1 = .error (.uniqueViolation text) ↔
        ∃ (id : NodeId) (other : Node) (key : NodeKey),
          (medium.store.call (.getNode id) s).1 = .ok other ∧ other.key? = some key ∧
            node.key? = some key ∧ key.canonical = text := by
  refine ⟨fun k l => NodeKey.canonical_injective.eq_iff, fun k l same =>
    ?_, fun node text => ?_⟩
  · rw [NodeKey.canonical_injective same]
    exact ⟨rfl, rfl⟩
  · rw [insertNode_refused_iff reached.sound]
    simp only [getNode_ok_iff reached.sound]
    constructor
    · rintro ⟨key, own, ⟨id, other, found, held⟩, same⟩
      exact ⟨id, other, key, found, held, own, same⟩
    · rintro ⟨id, other, key, found, held, own, same⟩
      exact ⟨key, own, ⟨id, other, found, held⟩, same⟩

/-- A library is refused when it is there already, in a level as elsewhere, but not when the
separator of another one's parts stands in a different place. -/
theorem index_compares_keys_of_libraries :
    let s := (memory.store.control .begin
      (memory.store.call (.insertNode (.library ⟨"a:1#b", "c"⟩)) memory.initial).2).2
    memory.Reachable s ∧
      (∃ (id : NodeId) (other : Node) (key : NodeKey),
        (memory.store.call (.getNode id) s).1 = .ok other ∧
        other.key? = some key ∧ (Node.library ⟨"a:1#b", "c"⟩).key? = some key ∧
          key.canonical = "library:5#a:1#b:1#c") ∧
      ∀ text, (memory.store.call (.insertNode (.library ⟨"a", "b:1#c"⟩)) s).1 ≠
        .error (.uniqueViolation text) := by
  have reached : memory.Reachable (memory.store.control .begin
      (memory.store.call (.insertNode (.library ⟨"a:1#b", "c"⟩)) memory.initial).2).2 :=
    .control .begin (.call _ .start fun _ => ⟨NodeId.ofNat 0, rfl⟩)
  exact ⟨reached, ((index_compares_keys memory reached).2.2 _ _).mp (by decide +kernel), nofun⟩

end Medium

end BlastRadius
