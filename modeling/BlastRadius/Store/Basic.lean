import BlastRadius.Store.Program

/-!
Stores and the running of programs on them.

A store answers calls and control requests and leaves a state, also when it fails. It also says how
a block runs as a transaction; `Store.transaction` is the usual way.
-/

namespace BlastRadius

/-- The result of a store operation and the state it leaves. -/
abbrev Outcome (σ α : Type) := Except StoreError α × σ

/-- A store whose states are the values of `σ`. -/
structure Store (σ : Type) where
  /-- Opens or closes a transaction level. -/
  control : Control → σ → Outcome σ Unit
  /-- Answers a call. -/
  call : (c : Call) → σ → Outcome σ c.Reply
  /-- Runs a block as one transaction. -/
  atomically : {β : Type} → (σ → Outcome σ β) → σ → Outcome σ β

namespace Store

variable {σ β : Type}

/-- Rolls back and reports `error`. A failing rollback leaves its state, but its own
error is not reported. -/
def abort (control : Control → σ → Outcome σ Unit) (error : StoreError) (state : σ) :
    Outcome σ β :=
  (.error error, (control .rollback state).2)

/-- Opens a level, runs a block and commits. The level is rolled back when the block or
the commit fails. -/
def transaction (control : Control → σ → Outcome σ Unit) (body : σ → Outcome σ β)
    (state : σ) :
    Outcome σ β :=
  match control .begin state with
  | (.error error, state) => (.error error, state)
  | (.ok _, state) =>
      match body state with
      | (.error error, state) => abort control error state
      | (.ok value, state) =>
          match control .commit state with
          | (.error error, state) => abort control error state
          | (.ok _, state) => (.ok value, state)

/-- A store that runs each block once, as a transaction of its own. -/
def plain (control : Control → σ → Outcome σ Unit)
    (call : (c : Call) → σ → Outcome σ c.Reply) :
    Store σ where
  control := control
  call := call
  atomically body := transaction control body

end Store

def Program.run {σ : Type} (store : Store σ) : {α : Type} → Program α → σ → α × σ
  | _, done value, state => (value, state)
  | _, call c next, state =>
      let answered := store.call c state
      (next answered.1).run store answered.2
  | _, atomically body next, state =>
      let answered := store.atomically (fun inner => body.run store inner) state
      (next answered.1).run store answered.2

end BlastRadius
