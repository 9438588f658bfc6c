import BlastRadius.Proofs.Store.Savepoints

/-!
The stores together with the connection, each from its first state on: levels that are rolled back
leave no trace, however deep they lie and whatever was done and committed in them.
-/

namespace BlastRadius

/-- What keeps a graph and its levels: memory with snapshots, a database with tables to return to,
or a connection with named savepoints. -/
inductive Backing where
  | memory
  | database
  | connection

namespace Backing

abbrev State : Backing → Type
  | memory => Memory
  | database => Database
  | connection => Connection

def store : (backing : Backing) → Store backing.State
  | memory => Memory.store
  | database => Database.store
  | connection => Connection.store

def initial : (backing : Backing) → backing.State
  | memory => {}
  | database => {}
  | connection => {}

/-- Every state that is reached is the image of a state of a reliable store. -/
theorem mirrored (backing : Backing) : ∃ (τ : Type) (other : Store τ) (opened : τ → List τ)
    (image : τ → backing.State), other.Reliable opened ∧ backing.store.Mirrors other image ∧
      ∀ {α : Type} (past : Dialogue α), ∃ t,
        (past.run backing.store backing.initial).2 = image t := by
  cases backing with
  | memory =>
      exact ⟨Memory, Memory.store, _, id, Memory.reliable, .refl _, fun past => ⟨_, rfl⟩⟩
  | database =>
      exact ⟨Database, Database.store, _, id, Database.reliable, .refl _, fun past =>
        ⟨_, rfl⟩⟩
  | connection =>
      refine ⟨Database, Database.store, _, Connection.ofDatabase, Database.reliable,
        Connection.mirrors, fun past => ⟨(past.run Database.store {}).2, ?_⟩⟩
      exact congrArg Prod.snd (Connection.mirrors.run past {})

/-- After any dialogue, a level that is rolled back is as if it had never been, also when a level
within it was committed. -/
theorem rollback_leaves_no_trace (backing : Backing) {α β γ δ : Type} (past : Dialogue α) :
    let store := backing.store
    let s := (past.run store backing.initial).2
    let s₁ := (store.control .begin s).2
    (∀ d : Dialogue β, d.Balanced store s₁ → d.rolledBack.Unseen store s) ∧
      ∀ (before : Dialogue β) (inner : Dialogue γ) (after : Dialogue δ),
        before.Balanced store s₁ →
        inner.Balanced store (store.control .begin (before.run store s₁).2).2 →
        after.Balanced store (inner.committed.run store (before.run store s₁).2).2 →
        (do let _ ← before; let _ ← inner.committed; after).rolledBack.Unseen store s := by
  obtain ⟨τ, other, opened, image, reliable, mirrors, reached⟩ := backing.mirrored
  obtain ⟨t, here⟩ := reached past
  dsimp only
  rw [here]
  constructor
  · intro d balanced
    exact mirrors.rolledBack_unseen reliable balanced
  · intro before inner after first second third
    apply mirrors.rolledBack_unseen reliable
    rw [mirrors.begun] at first second third ⊢
    rw [mirrors.run_state] at second third
    apply first.bind
    rw [mirrors.run_state]
    exact (mirrors.balanced_committed reliable second).bind third

/-- In an open level, a reset and a failed request, a committed insertion and a
removal are undone. -/
theorem rollback_leaves_no_trace_of_reset :
    let past : Dialogue Unit := do
      let _ ← Dialogue.ask (.insertNode (.system "shop"))
      let _ ← Dialogue.request .begin
    let before : Dialogue Unit := do
      let _ ← Dialogue.ask .reset
      let _ ← Dialogue.ask (.getNode (NodeId.ofNat 0))
    (do
      let _ ← before
      let _ ← (Dialogue.ask (.insertNode (.system "bank"))).committed
      Dialogue.ask (.removeKind .system)).rolledBack.Unseen memory.store
        (past.run memory.store memory.initial).2 := by
  intro past before
  apply (rollback_leaves_no_trace memory past).2 before
  · exact Option.some_inj.mpr rfl
  · exact Option.some_inj.mpr rfl
  · exact Option.some_inj.mpr rfl

end Backing

end BlastRadius
