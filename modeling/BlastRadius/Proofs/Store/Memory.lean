import BlastRadius.Proofs.Graph.Changes
import BlastRadius.Proofs.Store.Faithful
import BlastRadius.Store.Memory

/-!
The store in memory is faithful while its graph is valid.
-/

namespace BlastRadius.Memory

/-- The states in which the levels with the given snapshots were begun. -/
def begun : List DependencyGraph → List Memory
  | [] => []
  | graph :: rest => ⟨graph, rest⟩ :: begun rest

def view : View Memory where
  opened memory := begun memory.snapshots
  holds memory := memory.graph.contents
  sound memory := memory.graph.Valid
  level memory := memory.graph.next

theorem call_snapshots (q : Call) (memory : Memory) :
    (call q memory).2.snapshots = memory.snapshots := by
  have changed {α : Type} (result : Except GraphError (α × DependencyGraph)) :
      (memory.change result).2.snapshots = memory.snapshots := by
    rcases result with _ | ⟨_, _⟩ <;> rfl
  cases q <;> first | rfl | exact changed _

theorem transactional : store.Transactional view.opened where
  call_opened q memory := congrArg begun (call_snapshots q memory)
  begin_ok h := by
    cases h
    rfl
  begin_error h := by cases h
  commit_ok := by
    rintro ⟨graph, _ | ⟨saved, snapshots⟩⟩ b s' rest opened h
    · cases opened
    · cases opened
      cases h
      rfl
  commit_error := by
    rintro ⟨graph, _ | ⟨saved, snapshots⟩⟩ b s' rest error opened h
    · cases opened
    · cases h
  rollback := by
    rintro ⟨graph, _ | ⟨saved, snapshots⟩⟩ b rest opened
    · cases opened
    · cases opened
      rfl

variable {memory : Memory}

theorem missing_eq (g : DependencyGraph) :
    (fun id => !g.contains id) = fun id => (g.contents.node? id).isNone := by
  funext id
  cases h : g.nodes.lookup id <;>
    simp [DependencyGraph.contains, DependencyGraph.record?, DependencyGraph.contents, h]

theorem insertNode_answers (valid : memory.graph.Valid) (node : Node)
    (room : memory.graph.next < NodeId.count) :
    memory.graph.contents.Step (.insertNode node) (call (.insertNode node) memory).1
        (call (.insertNode node) memory).2.graph.contents ∧
      (call (.insertNode node) memory).2.graph.Valid ∧
      (call (.insertNode node) memory).2.graph.next ≤
        memory.graph.next + if (call (.insertNode node) memory).1.isOk then 1 else 0 := by
  by_cases taken : ∃ key, node.key? = some key ∧ (memory.graph.contents.keyed key).Nonempty
  · obtain ⟨key, hkey, held⟩ := taken
    have refused : call (.insertNode node) memory =
        (.error (.uniqueViolation key.canonical), memory) := by
      rw [call, DependencyGraph.addNode_taken valid hkey held]
      rfl
    rw [refused]
    exact ⟨Or.inl ⟨key, hkey, held, rfl, rfl⟩, valid, le_rfl⟩
  · have unkeyed (key : NodeKey) (hkey : node.key? = some key) :
        memory.graph.contents.keyed key = ∅ :=
      Set.not_nonempty_iff_eq_empty.mp fun held => taken ⟨key, hkey, held⟩
    obtain ⟨g, added, valid', holds, next⟩ :=
      DependencyGraph.addNode_eq valid (fun _ => room) unkeyed
    have done : call (.insertNode node) memory =
        (.ok memory.graph.nextId, { memory with graph := g }) := by
      rw [call, added]
      rfl
    rw [done]
    refine ⟨Or.inr ⟨unkeyed, _, DependencyGraph.nextId_fresh valid (fun _ => room),
      rfl, holds⟩,
      valid', next⟩

theorem insertEdge_answers (valid : memory.graph.Valid) (e : Edge) :
    memory.graph.contents.linked e = ((call (.insertEdge e) memory).1,
        (call (.insertEdge e) memory).2.graph.contents) ∧
      (call (.insertEdge e) memory).2.graph.Valid ∧
      (call (.insertEdge e) memory).2.graph.next = memory.graph.next := by
  have refused {error : GraphError} (h : memory.graph.addEdge e = .error error) :
      call (.insertEdge e) memory = (.error (.ofGraph error), memory) := by
    rw [call, h]
    rfl
  rcases hs : memory.graph.contents.node? e.source with _ | source
  · have missing : memory.graph.addEdge e = .error (.nodeNotFound e.source) := by
      rw [DependencyGraph.addEdge, DependencyGraph.node_eq, hs]
      rfl
    rw [refused missing, Contents.linked, hs]
    exact ⟨rfl, valid, rfl⟩
  rcases ht : memory.graph.contents.node? e.target with _ | target
  · have missing : memory.graph.addEdge e = .error (.nodeNotFound e.target) := by
      rw [DependencyGraph.addEdge, DependencyGraph.node_eq, DependencyGraph.node_eq, hs, ht]
      rfl
    rw [refused missing, Contents.linked, hs, ht]
    exact ⟨rfl, valid, rfl⟩
  by_cases permitted : e.relation.permits source.kind target.kind
  · obtain ⟨g, added, valid', holds, next⟩ := DependencyGraph.addEdge_eq valid hs ht permitted
    have done : call (.insertEdge e) memory =
        (.ok (memory.graph.contents.lacks e), { memory with graph := g }) := by
      rw [call, added]
      rfl
    rw [done, Contents.linked_of_permits hs ht permitted, ← holds]
    exact ⟨rfl, valid', next⟩
  · have forbidden : memory.graph.addEdge e =
        .error (.invalidRelation e.relation source.kind target.kind) := by
      rw [DependencyGraph.addEdge, DependencyGraph.node_eq, DependencyGraph.node_eq, hs, ht]
      change (e.relation.check source.kind target.kind >>= fun _ => _) = _
      rw [Relation.check, if_neg permitted]
      rfl
    rw [refused forbidden, Contents.linked, hs, ht]
    exact ⟨if_neg permitted, valid, rfl⟩

theorem markNodes_answers (valid : memory.graph.Valid) (ids : List NodeId) :
    memory.graph.contents.marking ids = ((call (.markNodes ids) memory).1,
        (call (.markNodes ids) memory).2.graph.contents) ∧
      (call (.markNodes ids) memory).2.graph.Valid ∧
      (call (.markNodes ids) memory).2.graph.next = memory.graph.next := by
  have agree : ids.find? (fun id => !memory.graph.contains id) =
      ids.find? fun id => (memory.graph.contents.node? id).isNone :=
    congrArg (fun p => ids.find? p) (missing_eq memory.graph)
  rcases found : ids.find? fun id => (memory.graph.contents.node? id).isNone with _ | missing
  · have existing (id : NodeId) (mem : id ∈ ids) : id ∈ memory.graph.contents.live := by
      have none := List.find?_eq_none.mp found id mem
      exact not_not.mp fun dead => none (by simp [Contents.not_mem_live.mp dead])
    have done : call (.markNodes ids) memory =
        (.ok ({id | id ∈ ids} \ memory.graph.contents.marked).ncard, { memory with
          graph := { memory.graph with
            nodes := memory.graph.nodes.map (Entries.markListed ids) } }) := by
      rw [call, DependencyGraph.setMarks_eq valid existing]
      rfl
    rw [done, Contents.marking_of_live existing, DependencyGraph.contents_setMarks existing]
    exact ⟨rfl, valid.setMarks existing, rfl⟩
  · have refused : call (.markNodes ids) memory = (.error (.nodeNotFound missing), memory) := by
      rw [call, DependencyGraph.setMarks_eq_error (agree.trans found)]
      rfl
    rw [refused, Contents.marking, found]
    exact ⟨rfl, valid, rfl⟩

theorem ask_answers {α : Type} {answer : Except GraphError α} {expected : Except StoreError α}
    (h : answer.mapError .ofGraph = expected) (valid : memory.graph.Valid) (n : Nat) :
    some (expected, memory.graph.contents) =
        some ((memory.ask answer).1, (memory.ask answer).2.graph.contents) ∧
      (memory.ask answer).2.graph.Valid ∧
      (memory.ask answer).2.graph.next ≤ memory.graph.next + n := by
  subst h
  exact ⟨rfl, valid, Nat.le_add_right _ _⟩

theorem mapError_ok {α : Type} {value expected : α} (h : value = expected) :
    (Except.ok value : Except GraphError α).mapError StoreError.ofGraph = .ok expected :=
  congrArg Except.ok h

theorem mapError_about {α : Type} {c : Contents} {id : NodeId} {answer : Node → α}
    {result : Except GraphError α}
    (h : result = match c.node? id with
      | some node => .ok (answer node)
      | none => .error (.nodeNotFound id)) :
    result.mapError StoreError.ofGraph = c.about id answer := by
  subst h
  rw [Contents.about]
  cases c.node? id <;> rfl

theorem nodeKind_eq (g : DependencyGraph) (id : NodeId) : Node.kind <$> g.node id =
    match g.contents.node? id with
    | some node => .ok node.kind
    | none => .error (.nodeNotFound id) := by
  rw [DependencyGraph.node_eq]
  cases g.contents.node? id <;> rfl

theorem faithful : store.Faithful view where
  toTransactional := transactional
  once body s := rfl
  begins {memory} sound := ⟨_, rfl, rfl, sound, rfl⟩
  commits := by
    rintro ⟨graph, _ | ⟨saved, snapshots⟩⟩ b rest sound opened
    · cases opened
    · exact ⟨_, rfl, rfl, sound, rfl⟩
  answers q memory valid room := by
    cases q with
    | insertNode node =>
        simp only [Call.inserts, true_and]
        exact insertNode_answers valid node (room rfl)
    | getNode id => exact ask_answers (mapError_about (DependencyGraph.node_eq id)) valid _
    | nodeKind id => exact ask_answers (mapError_about (nodeKind_eq memory.graph id)) valid _
    | findNode key =>
        exact ask_answers (mapError_ok (DependencyGraph.find?_eq valid key)) valid _
    | nodesOfKind kind =>
        exact ask_answers (mapError_ok (DependencyGraph.nodesOfKind_eq valid kind)) valid _
    | insertEdge e =>
        obtain ⟨answer, valid', next⟩ := insertEdge_answers valid e
        exact ⟨congrArg some answer, valid', Nat.le_add_right_of_le next.le⟩
    | targets id relation =>
        exact ask_answers (mapError_about (DependencyGraph.targets_eq valid id relation)) valid _
    | sources id relation =>
        exact ask_answers (mapError_about (DependencyGraph.sources_eq valid id relation)) valid _
    | isMarked id => exact ask_answers (mapError_about (DependencyGraph.isMarked_eq id)) valid _
    | markedNodes kind =>
        exact ask_answers (mapError_ok (DependencyGraph.markedOfKind_eq valid kind)) valid _
    | markNodes ids =>
        obtain ⟨answer, valid', next⟩ := markNodes_answers valid ids
        exact ⟨congrArg some answer, valid', Nat.le_add_right_of_le next.le⟩
    | clearMarks =>
        have done : call .clearMarks memory = (.ok memory.graph.contents.marked.ncard,
            { memory with graph := { memory.graph with
              nodes := memory.graph.nodes.map Entries.unmark } }) := by
          rw [call, DependencyGraph.clearMarks_eq valid]
          rfl
        change memory.graph.contents.answer? .clearMarks = some ((call .clearMarks memory).1,
          (call .clearMarks memory).2.graph.contents) ∧
            (call .clearMarks memory).2.graph.Valid ∧ _
        rw [done, DependencyGraph.contents_clearMarks]
        exact ⟨rfl, valid.clearMarks, Nat.le_add_right _ _⟩
    | loadGraph =>
        exact ⟨⟨⟨memory.graph, rfl, valid, rfl⟩, rfl⟩, valid,
          Nat.le_add_right _ _⟩
    | removeKind kind =>
        refine ⟨?_, valid.removeKind kind, Nat.le_add_right _ _⟩
        change some (_, _) = some (Except.ok (memory.graph.removeKind kind).1,
          (memory.graph.removeKind kind).2.contents)
        rw [DependencyGraph.removeKind_count valid, DependencyGraph.contents_removeKind valid]
        rfl
    | reset =>
        refine ⟨?_, DependencyGraph.empty_valid, Nat.zero_le _⟩
        change some (_, _) = some (Except.ok (), DependencyGraph.empty.contents)
        rw [DependencyGraph.contents_empty]

end BlastRadius.Memory
