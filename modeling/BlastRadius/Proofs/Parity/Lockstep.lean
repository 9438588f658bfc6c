import BlastRadius.Proofs.Parity.Translation
import BlastRadius.Proofs.Store.Backing

/-!
The two stores in lockstep. A graph in memory numbers its nodes from zero on and a database from one
on, and while nothing is removed neither leaves out a number. So the identifiers in the database are
those in memory raised by one, and all else that the stores answer is the same.
-/

namespace BlastRadius

/-- Raises an identifier by one, the greatest one to zero. -/
def NodeId.raising : Renaming where
  toFun id := ⟨id.value + 1⟩
  invFun id := ⟨id.value - 1⟩
  left_inv id := by simp
  right_inv id := by simp

theorem NodeId.raising_ofNat (n : Nat) : raising (ofNat n) = ofNat (n + 1) := by
  simp [raising, ofNat]

theorem NodeId.toNat_raising {id : NodeId} (below : id.toNat + 1 < count) :
    (raising id).toNat = id.toNat + 1 := by
  rw [← ofNat_toNat id, raising_ofNat, toNat_ofNat below, ofNat_toNat]

/-- The tables hold what the graph holds, under identifiers raised by one. Nothing was removed from
the graph, and its next identifier can be raised. -/
structure InStep (g : DependencyGraph) (tables : Tables) : Prop where
  compact : g.Compact
  small : g.next + 1 < NodeId.count
  valid : tables.Valid
  holds : tables.contents = g.contents.rename NodeId.raising

theorem empty_inStep : InStep {} {} where
  compact := DependencyGraph.empty_compact
  small := by decide
  valid := Tables.empty_valid
  holds := by
    have none : DependencyGraph.contents {} = Contents.empty := DependencyGraph.contents_empty
    rw [none, Contents.rename_empty, ← none]
    rfl

theorem InStep.mono {g : DependencyGraph} {tables : Tables} (inStep : InStep g tables) :
    StrictMonoOn NodeId.raising g.contents.live := by
  intro a ha b hb lt
  rw [inStep.compact.mem_live] at ha hb
  have small := inStep.small
  change (NodeId.raising a).toNat < (NodeId.raising b).toNat
  rw [NodeId.toNat_raising (by omega), NodeId.toNat_raising (by omega)]
  exact Nat.succ_lt_succ lt

theorem InStep.nextNumber {g : DependencyGraph} {tables : Tables} (inStep : InStep g tables) :
    tables.entries.nextNumber = g.next + 1 := by
  have entries : tables.entries = g.nodes.map (Entries.renameEntry NodeId.raising) :=
    Entries.eq_of_contents inStep.valid.ascending (inStep.compact.ascending.rename inStep.mono)
      (inStep.holds.trans (Entries.contents_renamed g.nodes g.edges).symm)
  have last := congrArg List.getLast? inStep.compact.numbered
  rw [List.getLast?_map, List.getLast?_range] at last
  rw [entries, Entries.nextNumber, List.getLast?_map]
  have small := inStep.small
  cases found : g.nodes.getLast? with
  | none =>
      rw [found, Option.map_none] at last
      split at last
      · rename_i zero
        rw [zero]
        rfl
      · cases last
  | some entry =>
      rw [found, Option.map_some] at last
      split at last
      · cases last
      · have number : entry.1.toNat = g.next - 1 := Option.some.inj last
        change (NodeId.raising entry.1).toNat + 1 = _
        rw [NodeId.toNat_raising (by omega)]
        omega

theorem Tables.insertNode_ok {tables tables' : Tables} {node : Node} {id : NodeId}
    (inserted : tables.insertNode node = .ok (id, tables')) :
    NodeId.ofInt? tables.nextNumber = some id := by
  rw [insertNode] at inserted
  split at inserted
  · cases inserted
  · split at inserted
    · cases inserted
    · rename_i found
      cases inserted
      exact found

theorem Database.insertNode_ok {db : Database} {node : Node} {id : NodeId}
    (inserted : (call (.insertNode node) db).1 = .ok id) :
    NodeId.ofInt? db.tables.nextNumber = some id := by
  change (db.change (db.tables.insertNode node)).1 = _ at inserted
  cases result : db.tables.insertNode node with
  | error error =>
      rw [result] at inserted
      cases inserted
  | ok added =>
      rw [result] at inserted
      cases inserted
      exact Tables.insertNode_ok result

namespace Memory

variable {memory : Memory}

theorem change_keeps {α : Type} {P : DependencyGraph → Prop}
    {result : Except GraphError (α × DependencyGraph)} (holds : P memory.graph)
    (keeps : ∀ value g', result = .ok (value, g') → P g') :
      P (memory.change result).2.graph := by
  cases result with
  | error error => exact holds
  | ok changed => exact keeps changed.1 changed.2 rfl

theorem call_compact (compact : memory.graph.Compact) {q : Call} (noNode : q.inserts = false)
    (noRemoval : ∀ kind, q ≠ .removeKind kind) :
    (call q memory).2.graph.Compact ∧ (call q memory).2.graph.next ≤ memory.graph.next := by
  have same : memory.graph.Compact ∧ memory.graph.next ≤ memory.graph.next :=
    ⟨compact, le_rfl⟩
  cases q with
  | insertNode node => cases noNode
  | removeKind kind => exact absurd rfl (noRemoval kind)
  | insertEdge e =>
      refine change_keeps (P := fun g => g.Compact ∧ g.next ≤ memory.graph.next) same ?_
      exact fun _ _ added => (compact.link added).imp_right Eq.le
  | markNodes ids =>
      refine change_keeps (P := fun g => g.Compact ∧ g.next ≤ memory.graph.next) same ?_
      exact fun _ _ marked => (compact.mark marked).imp_right Eq.le
  | clearMarks => exact compact.clearMarks.imp_right Eq.le
  | reset => exact ⟨DependencyGraph.empty_compact, Nat.zero_le _⟩
  | _ => exact same

theorem insertNode_cases (compact : memory.graph.Compact) (room : memory.graph.next < NodeId.count)
    (node : Node) :
    (∃ error, call (.insertNode node) memory = (.error error, memory)) ∨
    ∃ g', call (.insertNode node) memory =
        (.ok (NodeId.ofNat memory.graph.next), { memory with graph := g' }) ∧
      g'.Compact ∧ g'.next = memory.graph.next + 1 := by
  have done : call (.insertNode node) memory = memory.change (memory.graph.addNode node) := rfl
  rw [done]
  cases added : memory.graph.addNode node with
  | error error => exact Or.inl ⟨_, rfl⟩
  | ok result =>
      obtain ⟨id, g'⟩ := result
      obtain ⟨rfl, -⟩ := DependencyGraph.addNode_ok added
      refine Or.inr ⟨g', ?_, compact.add room added⟩
      rw [compact.nextId_eq]
      rfl

end Memory

/-- Whether an exchange removes nothing and gives no new node one of the two
greatest identifiers. -/
def Exchange.spares : Exchange → Bool
  | call (.insertNode _) (.ok id) => id.toNat + 2 < NodeId.count
  | call (.removeKind _) _ => false
  | _ => true

namespace InStep

variable {memory : Memory} {db : Database}

theorem insert (inStep : InStep memory.graph db.tables) (node : Node)
    (spares : (Exchange.call (.insertNode node) (Memory.call (.insertNode node) memory).1).spares) :
    (Call.insertNode node).translate NodeId.raising
        (Database.call (.insertNode (node.rename NodeId.raising)) db).1 =
      (Memory.call (.insertNode node) memory).1 ∧
    InStep (Memory.call (.insertNode node) memory).2.graph
      (Database.call (.insertNode (node.rename NodeId.raising)) db).2.tables := by
  have small := inStep.small
  have room : memory.graph.next < NodeId.count := by omega
  obtain ⟨step, -, -⟩ := Memory.faithful.answers (.insertNode node) inStep.compact.toValid
    fun _ => room
  obtain ⟨step', valid', -⟩ :=
    Database.faithful.answers (.insertNode (node.rename NodeId.raising))
    inStep.valid fun _ => inStep.nextNumber.trans_lt small
  change memory.graph.contents.Step _ (Memory.call _ memory).1
      (Memory.call _ memory).2.graph.contents
    at step
  change db.tables.contents.Step _ _ _ at step'
  rw [inStep.holds] at step'
  rcases Memory.insertNode_cases inStep.compact room node with ⟨error, refused⟩ |
    ⟨g', added, compact', next⟩
  · rw [refused] at step ⊢
    obtain ⟨answer, holds'⟩ := step.insert_renamed step' nofun
    exact ⟨answer, inStep.compact, small, valid', holds'⟩
  · rw [added] at spares step ⊢
    have below : (NodeId.ofNat memory.graph.next).toNat + 2 < NodeId.count :=
      of_decide_eq_true spares
    rw [NodeId.toNat_ofNat room] at below
    obtain ⟨answer, holds'⟩ := step.insert_renamed step' fun id id' own answered => by
      have number := Database.insertNode_ok answered
      rw [inStep.valid.rows, Tables.nextNumber_written, inStep.nextNumber, NodeId.ofInt?,
        if_pos (by omega), Int.toNat_natCast, ← NodeId.raising_ofNat] at number
      cases own
      exact (Option.some.inj number).symm
    refine ⟨answer, compact', ?_, valid', holds'⟩
    change g'.next + 1 < _
    omega

theorem load (inStep : InStep memory.graph db.tables) :
    Call.loadGraph.translate NodeId.raising (Database.call .loadGraph db).1 =
      (Memory.call .loadGraph memory).1 := by
  obtain ⟨⟨⟨g, answer, valid, holds⟩, -⟩, -⟩ :=
    Database.faithful.answers .loadGraph inStep.valid nofun
  change (Database.call .loadGraph db).1 = _ at answer
  rw [answer]
  exact inStep.compact.rebuilt valid (holds.trans inStep.holds) inStep.mono

theorem determined (inStep : InStep memory.graph db.tables) {q : Call}
    (determined : (memory.graph.contents.answer? q).isSome)
    (noRemoval : ∀ kind, q ≠ .removeKind kind) :
    q.translate NodeId.raising (Database.call (q.rename NodeId.raising) db).1 =
        (Memory.call q memory).1 ∧
      InStep (Memory.call q memory).2.graph
        (Database.call (q.rename NodeId.raising) db).2.tables := by
  obtain ⟨⟨r, c'⟩, answered⟩ := Option.isSome_iff_exists.mp determined
  have noNode : q.inserts = false := by
    cases q with
    | insertNode node => cases answered
    | _ => rfl
  have noNode' : (q.rename NodeId.raising).inserts = false := by
    cases q with
    | insertNode node => cases answered
    | _ => rfl
  obtain ⟨step, -, -⟩ := Memory.faithful.answers q inStep.compact.toValid (by simp [noNode])
  obtain ⟨result, holds⟩ := Contents.Determined.unique answered step
  obtain ⟨r', answered', translated⟩ :=
    Contents.Determined.rename inStep.compact.contents inStep.mono answered
  obtain ⟨step', valid', -⟩ := Database.faithful.answers (q.rename NodeId.raising) inStep.valid
    (by simp [noNode'])
  change db.tables.contents.Step _ _ _ at step'
  rw [inStep.holds] at step'
  obtain ⟨result', holds'⟩ := Contents.Determined.unique answered' step'
  obtain ⟨compact', next⟩ := Memory.call_compact inStep.compact noNode noRemoval
  refine ⟨?_, compact', (Nat.add_le_add_right next 1).trans_lt inStep.small, valid', ?_⟩
  · change q.translate _ (Database.store.call _ db).1 = (Memory.store.call q memory).1
    rw [result', translated, result]
  · exact holds'.trans (congrArg (Contents.rename NodeId.raising) holds.symm)

/-- A call that spares is answered alike and leaves the stores in step. -/
theorem call (inStep : InStep memory.graph db.tables) (q : Call)
    (spares : (Exchange.call q (Memory.call q memory).1).spares) :
    q.translate NodeId.raising (Database.call (q.rename NodeId.raising) db).1 =
        (Memory.call q memory).1 ∧
      InStep (Memory.call q memory).2.graph
        (Database.call (q.rename NodeId.raising) db).2.tables := by
  cases q with
  | insertNode node => exact inStep.insert node spares
  | loadGraph => exact ⟨inStep.load, inStep⟩
  | removeKind kind => cases spares
  | _ => exact inStep.determined rfl nofun

end InStep

/-- The graphs of the stores are in step, those to return to included. -/
structure Lockstep (memory : Memory) (db : Database) : Prop where
  current : InStep memory.graph db.tables
  below : List.Forall₂ InStep memory.snapshots db.savepoints

theorem initial_lockstep : Lockstep {} {} := ⟨empty_inStep, .nil⟩

namespace Lockstep

variable {memory : Memory} {db : Database}

theorem control (lockstep : Lockstep memory db) (request : Control) :
    (Database.control request db).1 = (Memory.control request memory).1 ∧
      Lockstep (Memory.control request memory).2 (Database.control request db).2 := by
  obtain ⟨graph, snapshots⟩ := memory
  obtain ⟨tables, savepoints⟩ := db
  obtain ⟨current, below⟩ := lockstep
  cases request with
  | begin => exact ⟨rfl, current, .cons current below⟩
  | commit =>
      cases below with
      | nil => exact ⟨rfl, current, .nil⟩
      | cons _ below => exact ⟨rfl, current, below⟩
  | rollback =>
      cases below with
      | nil => exact ⟨rfl, current, .nil⟩
      | cons saved below => exact ⟨rfl, saved, below⟩

theorem call (lockstep : Lockstep memory db) (q : Call)
    (spares : (Exchange.call q (Memory.call q memory).1).spares) :
    q.translate NodeId.raising (Database.call (q.rename NodeId.raising) db).1 =
        (Memory.call q memory).1 ∧
      Lockstep (Memory.call q memory).2 (Database.call (q.rename NodeId.raising) db).2 := by
  obtain ⟨answer, current⟩ := lockstep.current.call q spares
  refine ⟨answer, current, ?_⟩
  rw [Memory.call_snapshots, Database.call_savepoints]
  exact lockstep.below

theorem run {α : Type} (d : Dialogue α) (lockstep : Lockstep memory db)
    (spares : ∀ exchange ∈ d.transcript Memory.store memory, exchange.spares) :
    d.transcript (Database.store.renamed NodeId.raising) db = d.transcript Memory.store memory ∧
      (d.run (Database.store.renamed NodeId.raising) db).1 = (d.run Memory.store memory).1 := by
  induction d generalizing memory db with
  | done value => exact ⟨rfl, rfl⟩
  | call q next ih =>
      obtain ⟨here, later⟩ := List.forall_mem_cons.mp spares
      obtain ⟨answer, lockstep'⟩ := lockstep.call q here
      have same : ((Database.store.renamed NodeId.raising).call q db).1 =
          (Memory.store.call q memory).1 :=
        answer
      obtain ⟨transcript, value⟩ := ih _ lockstep' later
      rw [Dialogue.transcript, Dialogue.transcript, Dialogue.run, Dialogue.run, same]
      exact ⟨congrArg _ transcript, value⟩
  | control request next ih =>
      obtain ⟨-, later⟩ := List.forall_mem_cons.mp spares
      obtain ⟨answer, lockstep'⟩ := lockstep.control request
      have same : ((Database.store.renamed NodeId.raising).control request db).1 =
          (Memory.store.control request memory).1 := answer
      obtain ⟨transcript, value⟩ := ih _ lockstep' later
      rw [Dialogue.transcript, Dialogue.transcript, Dialogue.run, Dialogue.run, same]
      exact ⟨congrArg _ transcript, value⟩

end Lockstep

/-- In a dialogue without removals a new database, called with identifiers raised by one, answers as
a new store in memory does, but with identifiers raised by one. -/
theorem Backing.answers_raised_by_one (backing : Backing) (persistent : backing ≠ .memory)
    {α : Type}
    (d : Dialogue α) (spares : ∀ exchange ∈ d.transcript Memory.store {}, exchange.spares) :
    d.transcript (backing.store.renamed NodeId.raising) backing.initial =
      d.transcript Memory.store {} ∧
      (d.run (backing.store.renamed NodeId.raising) backing.initial).1 =
        (d.run Memory.store {}).1 := by
  have inStep := initial_lockstep.run d spares
  cases backing with
  | memory => exact absurd rfl persistent
  | database => exact inStep
  | connection =>
      have mirrors := Connection.mirrors.renamed (f := NodeId.raising)
      have value : (d.run (Connection.store.renamed NodeId.raising) {}).1 =
          (d.run (Database.store.renamed NodeId.raising) {}).1 :=
            congrArg Prod.fst (mirrors.run d {})
      exact ⟨(mirrors.transcript d {}).trans inStep.1, value.trans inStep.2⟩

/-- An identifier is given again after a rollback, and a node is refused because of its key. -/
theorem Backing.answers_raised_by_one_of_rollback :
    let d : Dialogue (Except StoreError NodeId) := do
      let _ ← Dialogue.ask (.insertNode (.system "shop"))
      let _ ← Dialogue.request .begin
      let _ ← Dialogue.ask (.insertNode (.endpoint "pay" (NodeId.ofNat 0)))
      let _ ← Dialogue.request .rollback
      let _ ← Dialogue.ask (.insertNode (.endpoint "pay" (NodeId.ofNat 0)))
      Dialogue.ask (.insertNode (.endpoint "pay" (NodeId.ofNat 0)))
    d.transcript (Connection.store.renamed NodeId.raising) {} = d.transcript Memory.store {} := by
  intro d
  exact (answers_raised_by_one connection nofun d (by decide)).1

end BlastRadius
