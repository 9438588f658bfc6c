import BlastRadius.Proofs.Inventory.FixtureText
import BlastRadius.Proofs.Store.UniqueKeys

/-!
What was written as a text comes back as it was: nodes, keys and fixtures, and from a store
of rows every node that was inserted, by itself and in the loaded graph, for as long as
nothing is removed or undone.
-/

namespace BlastRadius

/-- A dialogue in which no nodes are removed and no level is rolled back. -/
def Dialogue.Adds {α : Type} : Dialogue α → Prop
  | done _ => True
  | call q next => q.removes = false ∧ ∀ answer, (next answer).Adds
  | control request next => request ≠ .rollback ∧ ∀ answer, (next answer).Adds

/-- Whatever was done before and is added afterwards, an inserted node is read back, and the loaded
graph has it. -/
def Store.Restores {σ : Type} (store : Store σ) (first : σ) : Prop :=
  ∀ {α β : Type} (past : Dialogue α) (node : Node) (id : NodeId) (later : Dialogue β),
    let s := (past.run store first).2
    (store.call (.insertNode node) s).1 = .ok id → later.Adds →
      let s' := (later.run store (store.call (.insertNode node) s).2).2
      (store.call (.getNode id) s').1 = .ok node ∧
        ∃ g, (store.call .loadGraph s').1 = .ok g ∧ g.node id = .ok node

theorem Store.Mirrors.restores {σ τ : Type} {store : Store σ} {other : Store τ}
    {image : τ → σ}
    {first : τ} (mirrors : store.Mirrors other image) (restores : other.Restores first) :
    store.Restores (image first) := by
  intro α β past node id later s inserted adds
  have here : s = image (past.run other first).2 := mirrors.run_state past first
  rw [here, mirrors.call] at inserted ⊢
  have there := restores past node id later inserted adds
  have reached := mirrors.run_state later (other.call (.insertNode node) (past.run other first).2).2
  change (store.call _ (later.run store (image (other.call (.insertNode node) _).2)).2).1 = _ ∧
    ∃ g, (store.call _ (later.run store (image (other.call (.insertNode node) _).2)).2).1 = _ ∧
      _
  rw [reached, mirrors.call, mirrors.call]
  exact there

namespace Database

variable {db : Database}

theorem inserted_node (sound : db.Sound) {node : Node} {id : NodeId}
    (inserted : (store.call (.insertNode node) db).1 = .ok id) :
    (view.holds (store.call (.insertNode node) db).2).node? id = some node := by
  rcases (answers_tried (.insertNode node) sound.tables).1.insert_cases with
    ⟨other, -, -, answer, holds⟩ | ⟨_, -, -, answer, -⟩ | ⟨_, answer, -⟩
  · obtain rfl : other = id := Except.ok.inj (answer.symm.trans inserted)
    rw [holds, Contents.insert_node?_self]
  · rw [answer] at inserted
    cases inserted
  · rw [answer] at inserted
    cases inserted

theorem adds_extends {α : Type} {d : Dialogue α} (adds : d.Adds) (sound : db.Sound) :
    (view.holds db).ExtendedBy (view.holds (d.run store db).2) := by
  induction d generalizing db with
  | done value => exact .refl _
  | call q next ih =>
      have step := (answers_tried q sound.tables).1.change.extendedBy adds.1
      exact step.trans (ih _ (adds.2 _) (sound.call q))
  | control request next ih =>
      have later : (view.holds (store.control request db).2).ExtendedBy _ :=
        ih (store.control request db).1 (adds.2 _) (sound.control request)
      have kept : (store.control request db).2.tables = db.tables := by
        obtain ⟨tables, savepoints⟩ := db
        cases request with
        | begin => rfl
        | commit => cases savepoints <;> rfl
        | rollback => exact absurd rfl adds.1
      have same : view.holds (store.control request db).2 = view.holds db :=
        congrArg Tables.contents kept
      rw [same] at later
      exact later

theorem restores : store.Restores {} := by
  intro α β past node id later db inserted adds db'
  have before : db.Sound := initial_sound.run past
  have after := before.call (.insertNode node)
  have found := (adds_extends adds after).nodes (inserted_node before inserted)
  have sound : db'.Sound := after.run later
  have read : (store.call (.getNode id) db').1 = .ok node :=
    (@Medium.getNode_ok_iff .database db' sound.tables id node).mpr found
  obtain ⟨g, loads⟩ := sound.loads
  refine ⟨read, g, congrArg Prod.fst loads.loadGraph, ?_⟩
  have answer := loads.getNode id
  rw [read] at answer
  cases listed : g.node id with
  | error error =>
      rw [listed] at answer
      cases answer
  | ok other =>
      rw [listed] at answer
      cases answer
      rfl

end Database

/-- Decoding undoes encoding, for nodes, keys and fixtures, and so a store of rows returns
what was inserted. -/
theorem texts_restored :
    (∀ node : Node, Node.ofText node.toText = .ok node) ∧
    (∀ key : NodeKey, Json.decodeText NodeKey.decode key.toJson.compact = .ok key) ∧
    (∀ fixture : Fixture, Json.decodeText Fixture.decode fixture.toJson.compact = .ok fixture) ∧
    Database.store.Restores {} ∧ Connection.store.Restores {} :=
  ⟨Node.ofText_toText, NodeKey.decode_undoes.decodeText, Fixture.decode_undoes.decodeText,
    Database.restores, Connection.mirrors.restores Database.restores⟩

/-- A name of characters that are escaped in a text, through a level that is committed. -/
theorem texts_restored_of_escapes :
    let node := Node.endpoint "\"\\\n\x00" (NodeId.ofNat 4294967295)
    let s := (Connection.store.call (.insertNode node) {}).2
    let later : Dialogue Unit := do
      let _ ← Dialogue.request .begin
      let _ ← Dialogue.ask (.insertNode (.vulnerability none))
      let _ ← Dialogue.request .commit
    node.toText = "\x7b\"kind\":\"endpoint\",\"name\":\"\\\"\\\\\\n\\u0000\"," ++
        "\"component\":4294967295\x7d" ∧
      later.Adds ∧
      (Connection.store.call (.getNode (NodeId.ofNat 1)) (later.run Connection.store s).2).1 =
        .ok node := by
  intro node s later
  have adds : later.Adds := ⟨nofun, fun _ => ⟨rfl, fun _ => ⟨nofun, fun _ => trivial⟩⟩⟩
  have inserted : (Connection.store.call (.insertNode node) {}).1 = .ok (NodeId.ofNat 1) := by
    decide
  obtain ⟨-, -, -, -, restores⟩ := texts_restored
  exact ⟨by decide, adds, (restores (.done ()) node (NodeId.ofNat 1) later inserted adds).1⟩

end BlastRadius
