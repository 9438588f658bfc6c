import BlastRadius.Store.Database
import BlastRadius.Store.Fault
import BlastRadius.Store.Memory
import BlastRadius.Store.Retry

/-!
The bench on which a session tries out a store: the store itself, a count of the runs of a block,
faults that can be armed, and further attempts if a policy is given.
-/

namespace BlastRadius

/-- The state of a store together with a count that the store does not touch. -/
structure Metered (σ : Type) where
  inner : σ
  /-- How often the current block ran. -/
  runs : Nat := 0

namespace Metered

variable {σ : Type}

/-- A store operation that leaves the count alone. -/
def lift {α : Type} (operation : σ → Outcome σ α) (state : Metered σ) :
    Outcome (Metered σ) α :=
  let answered := operation state.inner
  (answered.1, ⟨answered.2, state.runs⟩)

def store (inner : Store σ) : Store (Metered σ) :=
  .plain (fun request => lift (inner.control request)) (fun c => lift (inner.call c))

end Metered

/-- A store that does not try again. -/
def Retrying.single {σ : Type} (inner : Store σ) : Store (Retrying σ) :=
  .plain (Retrying.control inner) fun c state =>
    let answered := inner.call c state.inner
    (answered.1, ⟨answered.2, state.depth⟩)

/-- What a session needs of the store that it tries out. -/
structure Backend (σ : Type) where
  store : Store σ
  /-- The number of open transaction levels. -/
  depth : σ → Nat
  /-- Closes the store and opens it again. -/
  reopen : σ → σ
  /-- Puts a row into the table of nodes as it is. -/
  plant : NodeRow → σ → Except StoreError σ

/-- The store in memory, which has no rows and is never closed. -/
def Backend.memory : Backend Memory where
  store := Memory.store
  depth := Memory.depth
  reopen := id
  plant _ state := .ok state

def Backend.database : Backend Database where
  store := Database.store
  depth := Database.depth
  reopen := Database.reopened
  plant row db := (fun tables => { db with tables := tables }) <$> db.tables.plant row

abbrev Bench (σ : Type) := Retrying (Faulty (Metered σ))

namespace Bench

variable {σ : Type}

/-- A bench that starts from a state, without faults and without an open level. -/
def start (state : σ) : Bench σ := ⟨⟨⟨state, 0⟩, []⟩, 0⟩

/-- The state of the store that is tried out. -/
def inner (bench : Bench σ) : σ := Retrying.inner bench |>.inner.inner

/-- Changes the state of the store that is tried out. -/
def setInner (state : σ) (bench : Bench σ) : Bench σ :=
  ⟨⟨⟨state, (Retrying.inner bench).inner.runs⟩, (Retrying.inner bench).faults⟩,
    bench.depth⟩

def runs (bench : Bench σ) : Nat := (Retrying.inner bench).inner.runs

def setRuns (runs : Nat) (bench : Bench σ) : Bench σ :=
  ⟨⟨⟨bench.inner, runs⟩, (Retrying.inner bench).faults⟩, bench.depth⟩

def arm (faults : List Fault) (bench : Bench σ) : Bench σ :=
  ⟨⟨(Retrying.inner bench).inner, faults⟩, bench.depth⟩

def store (backend : Backend σ) (retry : Option RetryPolicy) : Store (Bench σ) :=
  let faulty := Faulty.store (Metered.store backend.store)
  match retry with
  | some policy => Retrying.store policy faulty
  | none => Retrying.single faulty

end Bench

end BlastRadius
