import BlastRadius.Impact.Operation
import BlastRadius.Session.Bench

/-!
Sessions: a store driven step by step. A step that fails does not stop the session.
-/

namespace BlastRadius

/-- A step at the level of the store. -/
inductive StoreStep where
  | control (request : Control)
  | call (c : Call)
  | merge (node : Node)
  | countMarked
  /-- Runs steps as one transaction, up to the first that fails. If all succeed, the transaction
  may still be made to fail. -/
  | atomically (steps : List StoreStep) (fail : Option FaultKind)

/-- The answer to a step at the level of the store. -/
inductive StoreAnswer where
  | done
  | reply (c : Call) (value : c.Reply)
  | merged (id : NodeId) (created : Bool)
  | count (nodes : Nat)
  /-- How often the steps of a transaction were run, and their answers in the last run. -/
  | block (runs : Nat) (answers : List StoreAnswer)

namespace StoreStep

variable {σ : Type}

/-- Runs a block as one transaction and counts its runs. -/
def countRuns {α : Type} (store : Store (Bench σ)) (block : Bench σ → Outcome (Bench σ) α)
    (bench : Bench σ) : Outcome (Bench σ) (Nat × α) :=
  let answered := store.atomically (fun b => block (b.setRuns (b.runs + 1))) (bench.setRuns 0)
  (answered.1.map fun value => (answered.2.runs, value), answered.2.setRuns bench.runs)

mutual

def perform (store : Store (Bench σ)) : StoreStep → Bench σ → Outcome (Bench σ) StoreAnswer
  | control request, bench =>
      let answered := store.control request bench
      (answered.1.map fun _ => .done, answered.2)
  | call c, bench =>
      let answered := store.call c bench
      (answered.1.map fun value => .reply c value, answered.2)
  | merge node, bench =>
      let answered := (StoreProgram.mergeNode node).run.run store bench
      (answered.1.map fun merged => .merged merged.1 merged.2, answered.2)
  | countMarked, bench =>
      let answered := StoreProgram.countMarked.run.run store bench
      (answered.1.map .count, answered.2)
  | atomically steps fail, bench =>
      let answered := countRuns store (fun b => performAll store steps fail b) bench
      (answered.1.map fun (runs, answers) => .block runs answers, answered.2)

/-- Performs steps up to the first that fails, then fails if it is made to. -/
def performAll (store : Store (Bench σ)) :
    List StoreStep → Option FaultKind → Bench σ → Outcome (Bench σ) (List StoreAnswer)
  | [], none, bench => (.ok [], bench)
  | [], some fault, bench => (.error fault.error, bench)
  | step :: rest, fail, bench =>
      match perform store step bench with
      | (.error error, bench) => (.error error, bench)
      | (.ok answer, bench) =>
          let answered := performAll store rest fail bench
          (answered.1.map (answer :: ·), answered.2)

end

end StoreStep

/-- A step of a session. -/
inductive SessionStep where
  | store (step : StoreStep)
  | operation (operation : Operation)
  | refused (error : ImpactError)
  /-- Asks for the number of open levels of the store that is tried out. -/
  | depth
  | arm (faults : List Fault)
  | reopen
  /-- Puts a row into the table of nodes as it is. -/
  | plant (row : NodeRow)

/-- The result of a step of a session. -/
inductive SessionResult where
  | store (result : Except StoreError StoreAnswer)
  | operation (result : Except ImpactError Answer)
  | depth (levels : Nat)
  | done

namespace SessionStep

variable {σ : Type}

def perform (backend : Backend σ) (retry : Option RetryPolicy) (step : SessionStep)
    (bench : Bench σ) : SessionResult × Bench σ :=
  let whole := Bench.store backend retry
  match step with
  | store step =>
      let answered := step.perform whole bench
      (.store answered.1, answered.2)
  | operation op =>
      let answered := op.on whole bench
      (.operation answered.1, answered.2)
  | refused error => (.operation (.error error), bench)
  | depth => (.depth (backend.depth bench.inner), bench)
  | arm faults => (.done, bench.arm faults)
  | reopen => (.done, Bench.start (backend.reopen bench.inner))
  | plant row =>
      match backend.plant row bench.inner with
      | .ok state => (.done, bench.setInner state)
      | .error error => (.store (.error error), bench)

/-- Performs the steps of a session one after the other. -/
def performAll (backend : Backend σ) (retry : Option RetryPolicy) :
    List SessionStep → Bench σ → List SessionResult
  | [], _ => []
  | step :: rest, bench =>
      let answered := step.perform backend retry bench
      answered.1 :: performAll backend retry rest answered.2

end SessionStep

end BlastRadius
