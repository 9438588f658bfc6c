import BlastRadius.Proofs.Store.Runs
import BlastRadius.Proofs.Store.Faithful

/-!
Blocks that stop at their first failed step, and a store whose requests fail as a script says. What
a block does when it succeeds on such a store, it also does without faults.
-/

namespace BlastRadius

section Running

variable {σ α β : Type} (store : Store σ)

theorem Program.run_bind (p : Program α) (f : α → Program β) (s : σ) :
    (p >>= f).run store s = (f (p.run store s).1).run store (p.run store s).2 := by
  change (p.bind f).run store s = _
  induction p generalizing s with
  | done value => rfl
  | call q next ih => exact ih _ f _
  | atomically body next _ ih => exact ih _ f _

theorem Program.run_exceptT_bind {ε : Type} (p : ExceptT ε Program α)
    (f : α → ExceptT ε Program β)
    (s : σ) : (p >>= f).run.run store s = (andThen f (p.run.run store s).1).run store
      (p.run.run store s).2 := by
  rw [ExceptT.run_bind, Program.run_bind]
  cases (p.run.run store s).1 <;> rfl

theorem Program.run_map {ε : Type} (p : ExceptT ε Program α) (f : α → β) (s : σ) :
    (f <$> p).run.run store s = ((p.run.run store s).1.map f, (p.run.run store s).2) := by
  rw [ExceptT.run_map, map_eq_pure_bind, Program.run_bind]
  rfl

theorem Program.run_mapError {ε δ : Type} (p : ExceptT ε Program α) (f : ε → δ) (s : σ) :
    ((fun result => result.mapError f) <$> p.run).run store s =
      ((p.run.run store s).1.mapError f, (p.run.run store s).2) := by
  rw [map_eq_pure_bind, Program.run_bind]
  rfl

/-- The second look for a key that was found to be taken. -/
def Store.lookAgain (key : NodeKey) (error : StoreError) (s : σ) : Outcome σ (NodeId × Bool) :=
  match store.call (.findNode key) s with
  | (.error error, s) => (.error error, s)
  | (.ok (some id), s) => (.ok (id, false), s)
  | (.ok none, s) => (.error error, s)

/-- What merging a node with a key does. -/
def Store.merged (node : Node) (key : NodeKey) (s : σ) : Outcome σ (NodeId × Bool) :=
  match store.call (.findNode key) s with
  | (.error error, s) => (.error error, s)
  | (.ok (some id), s) => (.ok (id, false), s)
  | (.ok none, s) =>
      match store.call (.insertNode node) s with
      | (.ok id, s) => (.ok (id, true), s)
      | (.error error, s) =>
          if error.isUniqueViolation then store.lookAgain key error s else (.error error, s)

theorem StoreProgram.run_call (q : Call) (s : σ) : (call q).run.run store s = store.call q s := rfl

theorem StoreProgram.run_mergeNode {node : Node} {key : NodeKey} (keyed : node.key? = some key)
    (s : σ) : (mergeNode node).run.run store s = store.merged node key s := by
  rw [mergeNode, keyed, Store.merged]
  refine (Program.run_exceptT_bind store _ _ s).trans ?_
  rw [run_call]
  rcases store.call (.findNode key) s with ⟨error | _ | id, s₁⟩
  · rfl
  · refine (Program.run_bind store (ExceptT.run (do
      let id ← call (.insertNode node)
      return (id, true))) _ s₁).trans ?_
    rw [Program.run_exceptT_bind, run_call]
    dsimp only
    rcases store.call (.insertNode node) s₁ with ⟨error | id, s₂⟩
    · change Program.run store (ite (error.isUniqueViolation = true) (_ : StoreProgram _)
        (_ : StoreProgram _)) s₂ = _
      dsimp only
      split
      · refine (Program.run_exceptT_bind store _ _ s₂).trans ?_
        rw [run_call, Store.lookAgain]
        rcases store.call (.findNode key) s₂ with ⟨error' | _ | id, s₃⟩ <;> rfl
      · rfl
    · rfl
  · rfl

end Running

/-- Programs made of calls, merges and blocks within that stop at the first failed step. -/
inductive StoreProgram.Strict : {α : Type} → StoreProgram α → Prop where
  | pure {α : Type} (value : α) : Strict (pure value : StoreProgram α)
  | throw {α : Type} (error : StoreError) : Strict (throw error : StoreProgram α)
  | call (q : Call) : Strict (StoreProgram.call q)
  | merge (node : Node) : Strict (StoreProgram.mergeNode node)
  | atomically {β : Type} {body : StoreProgram β} : Strict body →
      Strict (StoreProgram.atomically body)
  | bind {α β : Type} {p : StoreProgram β} {next : β → StoreProgram α} :
      Strict p → (∀ value, Strict (next value)) → Strict (p >>= next)

/-- The state of a store whose requests are numbered in their order, rollbacks apart. The script
says which of them fail, and with what error. -/
structure Scripted (σ : Type) where
  inner : σ
  script : Nat → Option StoreError
  position : Nat := 0

namespace Scripted

variable {σ α : Type}

def attempt (request : σ → Outcome σ α) (state : Scripted σ) : Outcome (Scripted σ) α :=
  match state.script state.position with
  | some error => (.error error, { state with position := state.position + 1 })
  | none =>
      let answered := request state.inner
      (answered.1, { state with inner := answered.2, position := state.position + 1 })

/-- Opens or closes a level. No rollback is made to fail. -/
def control (store : Store σ) (request : Control) (state : Scripted σ) :
    Outcome (Scripted σ) Unit :=
  match request with
  | .rollback =>
      let answered := store.control .rollback state.inner
      (answered.1, { state with inner := answered.2 })
  | request => attempt (store.control request) state

/-- A store that fails as a script says. -/
def store (inner : Store σ) : Store (Scripted σ) :=
  .plain (control inner) fun q => attempt (inner.call q)

theorem call_of_none {inner : Store σ} {q : Call} {s : σ} {script : Nat → Option StoreError}
    {position : Nat} (none : script position = none) :
      (store inner).call q ⟨s, script, position⟩ =
      ((inner.call q s).1, ⟨(inner.call q s).2, script, position + 1⟩) := by
  change attempt (inner.call q) _ = _
  rw [attempt]
  simp only [none]

theorem call_of_some {inner : Store σ} {q : Call} {s : σ} {script : Nat → Option StoreError}
    {position : Nat} {error : StoreError} (some : script position = some error) :
    (store inner).call q ⟨s, script, position⟩ =
      (.error error, ⟨s, script, position + 1⟩) := by
  change attempt (inner.call q) _ = _
  rw [attempt]
  simp only [some]

theorem attempt_cases (request : σ → Outcome σ α) (state : Scripted σ) :
    ((attempt request state).1 = (request state.inner).1 ∧
      (attempt request state).2.inner = (request state.inner).2) ∨
    ∃ error, (attempt request state).1 = .error error ∧
      (attempt request state).2.inner = state.inner := by
  rw [attempt]
  cases state.script state.position with
  | none => exact Or.inl ⟨rfl, rfl⟩
  | some error => exact Or.inr ⟨error, rfl, rfl⟩

end Scripted

end BlastRadius
