import BlastRadius.Proofs.Store.Backing
import BlastRadius.Proofs.Store.Exhaustion

/-!
The graph that is loaded from a store answers as the store does. A database answers from the columns
of its rows, the graph from the texts of the nodes, which are all that it is built from. They agree
because the tables, those of open levels included, are always the written form of records and edges.
-/

namespace BlastRadius

theorem Contents.Step.answer_unique {c c' c'' : Contents} {q : Call}
    {r r' : Except StoreError q.Reply}
    (determined : (c.answer? q).isSome) (first : c.Step q r c')
    (second : c.Step q r' c'') : r = r' := by
  obtain ⟨outcome, answered⟩ := Option.isSome_iff_exists.mp determined
  obtain ⟨result, -⟩ := Contents.Determined.unique answered first
  obtain ⟨result', -⟩ := Contents.Determined.unique answered second
  exact result.trans result'.symm

/-- A store loads as a graph that gives the same answers. -/
structure Store.LoadsAs {σ : Type} (store : Store σ) (s : σ) (g : DependencyGraph) : Prop where
  loadGraph : store.call .loadGraph s = (.ok g, s)
  findNode : ∀ key, (store.call (.findNode key) s).1 = .ok (g.find? key)
  nodesOfKind : ∀ kind, (store.call (.nodesOfKind kind) s).1 = .ok (g.nodesOfKind kind)
  markedNodes : ∀ kind, (store.call (.markedNodes kind) s).1 = .ok (g.markedOfKind kind)
  getNode : ∀ id, (store.call (.getNode id) s).1 = (g.node id).mapError .ofGraph
  nodeKind : ∀ id, (store.call (.nodeKind id) s).1 = (Node.kind <$> g.node id).mapError .ofGraph
  targets : ∀ id relation, (store.call (.targets id relation) s).1 =
    (g.targets id relation).mapError .ofGraph
  sources : ∀ id relation, (store.call (.sources id relation) s).1 =
    (g.sources id relation).mapError .ofGraph
  isMarked : ∀ id, (store.call (.isMarked id) s).1 = (g.isMarked id).mapError .ofGraph

theorem Store.Mirrors.loadsAs {σ τ : Type} {store : Store σ} {other : Store τ}
    {image : τ → σ} {t : τ}
    {g : DependencyGraph} (mirrors : store.Mirrors other image) (loads : other.LoadsAs t g) :
    store.LoadsAs (image t) g := by
  have same (q : Call) : (store.call q (image t)).1 = (other.call q t).1 :=
    congrArg Prod.fst (mirrors.call q t)
  exact {
    loadGraph := by
      rw [mirrors.call, loads.loadGraph]
      rfl
    findNode := fun key => (same _).trans (loads.findNode key)
    nodesOfKind := fun kind => (same _).trans (loads.nodesOfKind kind)
    markedNodes := fun kind => (same _).trans (loads.markedNodes kind)
    getNode := fun id => (same _).trans (loads.getNode id)
    nodeKind := fun id => (same _).trans (loads.nodeKind id)
    targets := fun id relation => (same _).trans (loads.targets id relation)
    sources := fun id relation => (same _).trans (loads.sources id relation)
    isMarked := fun id => (same _).trans (loads.isMarked id) }

theorem Memory.loadsAs (memory : Memory) : store.LoadsAs memory memory.graph where
  loadGraph := rfl
  findNode _ := rfl
  nodesOfKind _ := rfl
  markedNodes _ := rfl
  getNode _ := rfl
  nodeKind _ := rfl
  targets _ _ := rfl
  sources _ _ := rfl
  isMarked _ := rfl

namespace Database

/-- The tables of a database and those of its open levels are valid. -/
structure Sound (db : Database) : Prop where
  tables : db.tables.Valid
  savepoints : ∀ tables ∈ db.savepoints, tables.Valid

theorem initial_sound : Sound {} := ⟨Tables.empty_valid, nofun⟩

variable {db : Database}

theorem Sound.control (sound : db.Sound) (request : Control) : (control request db).2.Sound := by
  obtain ⟨tables, savepoints⟩ := db
  cases request with
  | begin => exact ⟨sound.tables, List.forall_mem_cons.mpr ⟨sound.tables, sound.savepoints⟩⟩
  | commit =>
      obtain _ | ⟨saved, savepoints⟩ := savepoints
      · exact sound
      · exact ⟨sound.tables, (List.forall_mem_cons.mp sound.savepoints).2⟩
  | rollback =>
      obtain _ | ⟨saved, savepoints⟩ := savepoints
      · exact sound
      · obtain ⟨valid, below⟩ := List.forall_mem_cons.mp sound.savepoints
        exact ⟨valid, below⟩

theorem Sound.call (sound : db.Sound) (q : Call) : (call q db).2.Sound := by
  constructor
  · exact (answers_tried q sound.tables).2
  · rw [call_savepoints]
    exact sound.savepoints

theorem Sound.run {α : Type} (sound : db.Sound) (d : Dialogue α) : (d.run store db).2.Sound :=
  Dialogue.run_keeps (fun request _ sound => sound.control request)
    (fun q _ sound => sound.call q) d
    sound

/-- A database and a graph with the same contents answer a question alike. -/
theorem answer_eq {g : DependencyGraph} (sound : db.tables.Valid) (valid : g.Valid)
    (holds : g.contents = db.tables.contents) (q : Call) (noNode : q.inserts = false)
    (determined : (g.contents.answer? q).isSome) :
    (call q db).1 = (Memory.call q ⟨g, []⟩).1 := by
  have noRoom {n : Nat} (inserts : q.inserts = true) : n < NodeId.count := by
    rw [noNode] at inserts
    cases inserts
  obtain ⟨here, -, -⟩ := faithful.answers q sound noRoom
  obtain ⟨there, -, -⟩ := Memory.faithful.answers q (s := ⟨g, []⟩) valid noRoom
  change db.tables.contents.Step q _ _ at here
  rw [← holds] at here
  exact here.answer_unique determined there

theorem Sound.loads (sound : db.Sound) : ∃ g, store.LoadsAs db g := by
  obtain ⟨loaded, -, -⟩ := faithful.answers .loadGraph sound.tables nofun
  obtain ⟨⟨g, answer, valid, holds⟩, -⟩ := loaded
  have alike (q : Call) := answer_eq sound.tables valid holds q
  exact ⟨g, {
    loadGraph := Prod.ext answer rfl
    findNode := fun key => alike (.findNode key) rfl rfl
    nodesOfKind := fun kind => alike (.nodesOfKind kind) rfl rfl
    markedNodes := fun kind => alike (.markedNodes kind) rfl rfl
    getNode := fun id => alike (.getNode id) rfl rfl
    nodeKind := fun id => alike (.nodeKind id) rfl rfl
    targets := fun id relation => alike (.targets id relation) rfl rfl
    sources := fun id relation => alike (.sources id relation) rfl rfl
    isMarked := fun id => alike (.isMarked id) rfl rfl }⟩

end Database

/-- Whatever was done with it, a store loads as a graph that answers as the store does itself. -/
theorem Backing.loads_as_it_answers (backing : Backing) {α : Type} (past : Dialogue α) :
    ∃ g, backing.store.LoadsAs (past.run backing.store backing.initial).2 g := by
  cases backing with
  | memory => exact ⟨_, Memory.loadsAs _⟩
  | database => exact (Database.initial_sound.run past).loads
  | connection =>
      obtain ⟨g, loads⟩ := (Database.initial_sound.run past).loads
      have reached : (past.run Connection.store {}).2 =
          Connection.ofDatabase (past.run Database.store {}).2 :=
            Connection.mirrors.run_state past {}
      refine ⟨g, ?_⟩
      change Connection.store.LoadsAs (past.run Connection.store {}).2 g
      rw [reached]
      exact Connection.mirrors.loadsAs loads

end BlastRadius
