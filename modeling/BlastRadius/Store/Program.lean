import BlastRadius.Store.Call

/-!
Programs over a store: sequences of calls in which each call may depend on the answers to those
before it, with blocks that run as one transaction. A program does not open or close transactions
by itself.

`StoreProgram` adds stopping at the first store error.
-/

namespace BlastRadius

/-- A program that answers with an `α`. -/
inductive Program : Type → Type 1 where
  | done {α : Type} (value : α) : Program α
  /-- Makes a call and goes on with its result. -/
  | call {α : Type} (c : Call) (next : Except StoreError c.Reply → Program α) : Program α
  /-- Runs a block as one transaction and goes on with its result. The store may run the block
  more than once. -/
  | atomically {α β : Type} (body : Program (Except StoreError β))
      (next : Except StoreError β → Program α) : Program α

namespace Program

variable {α β γ : Type}

def bind : Program α → (α → Program β) → Program β
  | done value, f => f value
  | call c next, f => call c fun result => bind (next result) f
  | atomically body next, f => atomically body fun result => bind (next result) f

instance : Monad Program where
  pure := done
  bind := bind

theorem bind_done (program : Program α) : bind program done = program := by
  induction program with
  | done value => rfl
  | call c next ih => simp [bind, ih]
  | atomically body next _ ih => simp [bind, ih]

theorem bind_assoc (program : Program α) (f : α → Program β) (g : β → Program γ) :
    bind (bind program f) g = bind program fun value => bind (f value) g := by
  induction program with
  | done value => rfl
  | call c next ih => simp [bind, ih]
  | atomically body next _ ih => simp [bind, ih]

instance : LawfulMonad Program :=
  LawfulMonad.mk' Program bind_done (fun _ _ => rfl) bind_assoc

end Program

/-- A program that stops at the first store error. -/
abbrev StoreProgram := ExceptT StoreError Program

namespace StoreProgram

def call (c : Call) : StoreProgram c.Reply :=
  ExceptT.mk (Program.call c Program.done)

/-- Runs a block as one transaction. -/
def atomically {β : Type} (body : StoreProgram β) : StoreProgram β :=
  ExceptT.mk (Program.atomically body.run Program.done)

/-- The node with the key of `node`, or else `node` inserted, and whether it was inserted. If the
key is taken between the look-up and the insertion, the node that took it is the answer. A node
without a key is always inserted. -/
def mergeNode (node : Node) : StoreProgram (NodeId × Bool) :=
  match node.key? with
  | none => do
      let id ← call (.insertNode node)
      return (id, true)
  | some key => do
      match ← call (.findNode key) with
      | some id => return (id, false)
      | none =>
          tryCatch
            (do
              let id ← call (.insertNode node)
              return (id, true))
            fun error => do
              if error.isUniqueViolation then
                match ← call (.findNode key) with
                | some id => return (id, false)
                | none => throw error
              else throw error

/-- How many nodes of any kind are marked. -/
def countMarked : StoreProgram Nat :=
  NodeKind.all.foldlM (fun total kind => do
    let ids ← call (.markedNodes kind)
    return total + ids.length) 0

end StoreProgram

end BlastRadius
