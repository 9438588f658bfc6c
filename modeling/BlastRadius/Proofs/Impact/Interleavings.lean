import BlastRadius.Proofs.Impact.Histories
import BlastRadius.Proofs.Store.Sharing

/-!
What a store holds while any number of clients perform operations, in any order of their steps. What
holds without nodes and is kept by every step of every operation holds all the time.
-/

namespace BlastRadius

open Contents

/-- Operations that a client performs one after the other, whatever the answers are. -/
def Operation.inTurn : List Operation → Program Unit
  | [] => return ()
  | operation :: rest => do
      let _ ← operation.perform.run
      inTurn rest

theorem Operation.inTurn_each {C : Call → Prop}
    {B : (β : Type) → Program (Except StoreError β) → Prop} {operations : List Operation}
    (each : ∀ operation ∈ operations, EachStep C B operation.perform) :
    (inTurn operations).Each C B := by
  induction operations with
  | nil => trivial
  | cons operation rest ih =>
      refine Program.Each.bind (each operation List.mem_cons_self) fun _ => ?_
      exact ih fun other mem => each other (List.mem_cons_of_mem operation mem)

namespace Medium

/-- Clients that perform operations on a store without nodes. -/
def performing (medium : Medium) {ι : Type} (operations : ι → List Operation) :
    Clients medium.State fun _ : ι => Unit where
  program i := Operation.inTurn (operations i)
  state := medium.initial

variable {medium : Medium} {ι : Type} [DecidableEq ι] {operations : ι → List Operation}
  {turns : List ι}

def heldAmid (medium : Medium) (operations : ι → List Operation) (turns : List ι) : Contents :=
  medium.view.holds ((medium.performing operations).run medium.store turns).state

theorem heldAmid_invariant {I : Contents → Prop} (start : I .empty)
    (keeps : ∀ i, ∀ operation ∈ operations i,
      Keeps (fun c c' => I c → I c') operation.perform)
    (serves : medium.Serves (medium.performing operations) turns) :
    I (medium.heldAmid operations turns) := by
  have kept :=
    (keeps_run (R := fun c c' => I c → I c') (medium.performing operations) (fun _ => id)
    (fun first rest => rest ∘ first) (fun i => Operation.inTurn_each (keeps i))
      medium.initial_sound
    serves).1
  refine kept ?_
  rw [performing, initial_holds]
  exact start

end Medium

end BlastRadius
