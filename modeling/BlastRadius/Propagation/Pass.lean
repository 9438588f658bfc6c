import BlastRadius.Impact.Program
import BlastRadius.Propagation.Stage

/-!
What each stage of a propagation does. A stage reads the nodes that its rule reaches from the marks
and then marks them in one call; the second stage does so four times.

The closure of calls repeats this for the symbols marked last until nothing new is reached. Every
round before the last marks a node, so the number of identifiers bounds the rounds.
-/

namespace BlastRadius

/-- Why a stage stopped. -/
inductive Interrupt where
  | store (error : StoreError)
  | deadline
  deriving DecidableEq, Repr

def Interrupt.inStage (stage : Stage) : Interrupt → ImpactError
  | store error => .stageFailed stage error
  | deadline => .deadlineExceeded stage

/-- A program that may be interrupted. -/
abbrev StageProgram := ExceptT Interrupt Program

namespace Propagation

open StoreProgram (call gather)

variable {α : Type}

/-- A store program within a stage. -/
def reading (program : StoreProgram α) : StageProgram α :=
  ExceptT.mk ((fun result => result.mapError Interrupt.store) <$> program.run)

/-- Marks the given nodes in one call and says how many were not marked before. After the deadline
nothing is marked any more; without nodes there is no call. -/
def commit (late : Bool) (ids : List NodeId) : StageProgram Nat :=
  if late then throw .deadline
  else
    match NodeId.ascending ids with
    | [] => return 0
    | first :: rest => reading (call (.markNodes (first :: rest)))

/-- Marks what a reading finds. -/
def mark (late : Bool) (found : StoreProgram (List NodeId)) : StageProgram Nat := do
  let ids ← reading found
  commit late ids

/-- What `f` finds from the marked nodes of a kind. -/
def fromMarked (kind : NodeKind) (f : NodeId → StoreProgram (List NodeId)) :
    StoreProgram (List NodeId) := do
  let ids ← call (.markedNodes kind)
  gather f ids

/-- The elements of a list that have a kind. -/
def ofKind (kind : NodeKind) (ids : List NodeId) : StoreProgram (List NodeId) :=
  StoreProgram.keep (fun id => do
    let found ← call (.nodeKind id)
    return found == kind) ids

/-- The records of a kind that name a node as called. -/
def callingRecords (kind : NodeKind) (callee : NodeId) (f : NodeId → StoreProgram (List α)) :
    StoreProgram (List α) := do
  let records ← call (.sources callee .callees)
  gather (fun record => do
    let found ← call (.nodeKind record)
    -- Both networks use the same relations, and only the kind of a record tells which one it is of.
    if found == kind then f record else return []) records

/-- The unmarked callers of a symbol, each with the record through which it calls. -/
def unmarkedCallers (symbol : NodeId) : StoreProgram (List (NodeId × NodeId)) :=
  callingRecords .callGraphDependency symbol fun record => do
    let callers ← call (.targets record .caller)
    let unmarked ← StoreProgram.keep (fun caller => do
      let marked ← call (.isMarked caller)
      return !marked) callers
    return unmarked.map fun caller => (caller, record)

/-- The bindings about a marked anchor and their targets of a sibling kind. A binding without such
a target is left out. -/
def siblings (anchor sibling : NodeKind) : StoreProgram (List NodeId) :=
  fromMarked anchor fun id => do
    let bindings ← call (.sources id .specializesInto)
    gather (fun binding => do
      let targets ← call (.targets binding .specializesInto)
      let found ← ofKind sibling targets
      return if found.isEmpty then [] else binding :: found) bindings

/-- The endpoints that serve a symbol, the records that name them as called, the callers of these
and the components that expose the callers. -/
def networkReach (symbol : NodeId) : StoreProgram (List NodeId) := do
  let endpoints ← call (.sources symbol .serves)
  gather (fun endpoint => do
    let reached ← callingRecords .interComponentDependency endpoint fun record => do
      let callers ← call (.targets record .caller)
      let exposed ← gather (fun caller => do
        let owners ← call (.targets caller .exposes)
        return caller :: owners) callers
      return record :: exposed
    return endpoint :: reached) endpoints

/-- The rounds of the closure of calls, from a frontier of symbols. The first of them makes the
commit of the given number. -/
def closeCalls (late : Nat → Bool) : Nat → Nat → List NodeId → StageProgram Nat
  | 0, _, _ => return 0
  | fuel + 1, step, frontier => do
      let found ← reading (gather unmarkedCallers frontier)
      let newly ← commit (late step) (found.flatMap fun (caller, record) => [caller, record])
      if newly = 0 then return 0
      else
        -- Callers that were marked before have been looked at, so that only the others can lead
        -- further.
        let later ← closeCalls late fuel (step + 1) (NodeId.ascending (found.map Prod.fst))
        return newly + later

/-- Marks the symbols that reach a marked symbol by calls, and the records of these calls. -/
def allReachingSymbols (late : Nat → Bool) : StageProgram Nat := do
  let frontier ← reading (call (.markedNodes .symbol))
  closeCalls late (NodeId.count + 1) 0 (NodeId.ascending frontier)

/-- Marks the libraries that provide a marked symbol, then the components and the assets that a
binding puts beside a marked library, then the assets that one puts beside a marked component. -/
def allProvidingLibraries (late : Nat → Bool) : StageProgram Nat := do
  let libraries ← mark (late 0) (fromMarked .symbol fun id => call (.sources id .provides))
  let components ← mark (late 1) (siblings .library .component)
  let assets ← mark (late 2) (siblings .library .asset)
  let componentAssets ← mark (late 3) (siblings .component .asset)
  return libraries + components + assets + componentAssets

/-- Marks what reaches a marked symbol over the network. -/
def allReachingComponents (late : Bool) : StageProgram Nat :=
  mark late (fromMarked .symbol networkReach)

/-- Marks the assets that host a marked component. -/
def allHostingAssets (late : Bool) : StageProgram Nat :=
  mark late (fromMarked .component fun id => call (.targets id .hostedBy))

/-- Marks the components hosted by a marked asset. -/
def lateralMovement (late : Bool) : StageProgram Nat :=
  mark late (fromMarked .asset fun id => call (.sources id .hostedBy))

/-- Marks the systems that contain a marked component. -/
def allSystems (late : Bool) : StageProgram Nat :=
  mark late (fromMarked .component fun id => call (.sources id .composedOf))

/-- What a stage does, and how many nodes it marked. `late` says of each of its commits, counted
from zero, whether it comes after the deadline. -/
def pass (late : Nat → Bool) : Stage → StageProgram Nat
  | .allReachingSymbols => allReachingSymbols late
  | .allProvidingLibraries => allProvidingLibraries late
  | .allReachingComponents => allReachingComponents (late 0)
  | .allHostingAssets => allHostingAssets (late 0)
  | .lateralMovement => lateralMovement (late 0)
  | .allSystems => allSystems (late 0)

end Propagation

end BlastRadius
