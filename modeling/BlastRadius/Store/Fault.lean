import BlastRadius.Store.Basic

/-!
Stores that fail on demand. A list of faults says which calls fail, how often and with what error;
a call that fails does not reach the store behind, except in a race, where the node is inserted
and the caller is told that its key was taken.
-/

namespace BlastRadius

/-- The operations of a store that can be made to fail. -/
inductive Method where
  | begin
  | commit
  | rollback
  | insertNode
  | getNode
  | nodeKind
  | findNode
  | nodesOfKind
  | insertEdge
  | targets
  | sources
  | isMarked
  | markedNodes
  | markNodes
  | clearMarks
  | loadGraph
  | removeKind
  | reset
  deriving DecidableEq, Repr

def Control.method : Control → Method
  | begin => .begin
  | commit => .commit
  | rollback => .rollback

def Call.method : Call → Method
  | insertNode _ => .insertNode
  | getNode _ => .getNode
  | nodeKind _ => .nodeKind
  | findNode _ => .findNode
  | nodesOfKind _ => .nodesOfKind
  | insertEdge _ => .insertEdge
  | targets _ _ => .targets
  | sources _ _ => .sources
  | isMarked _ => .isMarked
  | markedNodes _ => .markedNodes
  | markNodes _ => .markNodes
  | clearMarks => .clearMarks
  | loadGraph => .loadGraph
  | removeKind _ => .removeKind
  | reset => .reset

/-- What a failing call reports. -/
inductive FaultKind where
  | unavailable
  | noTransaction
  | unique
  /-- Another client inserts the node first. -/
  | race
  deriving DecidableEq, Repr

def FaultKind.reason : String := "injected"

def FaultKind.error : FaultKind → StoreError
  | unavailable => .unavailable reason
  | noTransaction => .noTransaction
  | unique | race => .uniqueViolation reason

/-- Calls that are to fail. -/
structure Fault where
  method : Method
  /-- How many calls are to fail. -/
  times : Nat
  kind : FaultKind
  /-- How many matching calls are let through first. -/
  skip : Nat := 0
  /-- Only calls about this kind of node match. -/
  about : Option NodeKind := none
  deriving DecidableEq, Repr

/-- Goes through the faults in their order. A matching fault lets the call through while it skips,
then fails it while it has times left. The answer is the fault that fails the call, if one does,
and the faults that remain. -/
def Fault.scan (applies : Fault → Bool) : List Fault → Option FaultKind × List Fault
  | [] => (none, [])
  | fault :: rest =>
      if applies fault then
        if 0 < fault.skip then
          let found := scan applies rest
          (found.1, { fault with skip := fault.skip - 1 } :: found.2)
        else if 0 < fault.times then
          (some fault.kind, { fault with times := fault.times - 1 } :: rest)
        else
          let found := scan applies rest
          (found.1, fault :: found.2)
      else
        let found := scan applies rest
        (found.1, fault :: found.2)

/-- The state of a store together with the faults that remain. -/
structure Faulty (σ : Type) where
  inner : σ
  faults : List Fault := []

namespace Faulty

variable {σ : Type}

/-- Whether a call is about nodes of a kind. For marking, one of the nodes has to
exist with this kind. -/
def isAbout (store : Store σ) (state : σ) (kind : NodeKind) : Call → Bool
  | .insertNode node => node.kind == kind
  | .markedNodes asked | .removeKind asked => asked == kind
  | .markNodes ids => ids.any fun id =>
      match (store.call (.nodeKind id) state).1 with
      | .ok found => found == kind
      | .error _ => false
  | _ => false

def applies (store : Store σ) (state : σ) (c : Call) (fault : Fault) : Bool :=
  fault.method == c.method &&
    match fault.about with
    | none => true
    | some kind => isAbout store state kind c

/-- What a failing call does: nothing, but in a race the node is inserted. -/
def fail (store : Store σ) (kind : FaultKind) (c : Call) (state : σ) : Outcome σ c.Reply :=
  match kind, c with
  | .race, .insertNode node =>
      match store.call (.insertNode node) state with
      | (.error error, state) => (.error error, state)
      | (.ok _, state) =>
          (.error (.uniqueViolation ((node.key?.map NodeKey.canonical).getD "")), state)
  | kind, _ => (.error kind.error, state)

/-- Answers a call, unless a fault fails it. -/
def call (store : Store σ) (c : Call) (state : Faulty σ) : Outcome (Faulty σ) c.Reply :=
  match Fault.scan (applies store state.inner c) state.faults with
  | (none, faults) =>
      let answered := store.call c state.inner
      (answered.1, ⟨answered.2, faults⟩)
  | (some kind, faults) =>
      let answered := fail store kind c state.inner
      (answered.1, ⟨answered.2, faults⟩)

/-- Opens or closes a level, unless a fault fails it. -/
def control (store : Store σ) (request : Control) (state : Faulty σ) : Outcome (Faulty σ) Unit :=
  let matching (fault : Fault) : Bool := fault.method == request.method && fault.about.isNone
  match Fault.scan matching state.faults with
  | (none, faults) =>
      let answered := store.control request state.inner
      (answered.1, ⟨answered.2, faults⟩)
  | (some kind, faults) => (.error kind.error, ⟨state.inner, faults⟩)

/-- A store that fails as its faults say. -/
def store (inner : Store σ) : Store (Faulty σ) := .plain (control inner) (call inner)

end Faulty

end BlastRadius
