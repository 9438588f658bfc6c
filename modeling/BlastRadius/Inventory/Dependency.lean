import BlastRadius.Impact.Program
import BlastRadius.Node.Codec

/-!
Records of calls. Each caller has one dependency record; a further call adds the callees that are
missing.
-/

namespace BlastRadius

/-- The link from a caller to its callees. -/
structure DependencyLink where
  caller : NodeId
  /-- The record of the caller, or `none` when there was no callee to link. -/
  dependency : Option NodeId
  /-- The callees linked now, ascending. -/
  callees : List NodeId
  deriving DecidableEq, Repr

def DependencyLink.toJson (link : DependencyLink) : Json :=
  .obj [("caller", link.caller.toJson),
    ("dependency", link.dependency.elim .null NodeId.toJson),
    ("callees", NodeId.listToJson link.callees)]

/-- The two networks of calls. -/
inductive CallNetwork where
  /-- Symbols that call symbols. -/
  | code
  /-- Endpoints that call endpoints. -/
  | network
  deriving DecidableEq, Repr

def CallNetwork.record : CallNetwork → Node
  | code => .callGraphDependency
  | network => .interComponentDependency

namespace Inventory

open StoreProgram (call)

/-- The record of a caller, if it has one. -/
def existingDependency (net : CallNetwork) (caller : NodeId) : StoreProgram (Option NodeId) := do
  let candidates ← call (.sources caller .caller)
  StoreProgram.first? (fun candidate => do
    let kind ← call (.nodeKind candidate)
    return kind == net.record.kind) candidates

/-- The record of a caller, inserted if it has none. -/
def ensureDependency (net : CallNetwork) (caller : NodeId) : StoreProgram NodeId := do
  match ← existingDependency net caller with
  | some id => return id
  | none =>
      let id ← call (.insertNode net.record)
      let _ ← call (.insertEdge ⟨id, .caller, caller⟩)
      return id

/-- Links a caller to callees in one transaction. Without callees nothing is done. -/
def linkDependency (net : CallNetwork) (caller : NodeId) (callees : List NodeId) :
    StoreProgram DependencyLink := do
  if callees.isEmpty then return ⟨caller, none, []⟩
  else
    let linked := NodeId.ascending callees
    let dependency ← StoreProgram.atomically do
      let dependency ← ensureDependency net caller
      let _ ← StoreProgram.each (fun callee =>
        call (.insertEdge ⟨dependency, .callees, callee⟩)) linked
      return dependency
    return ⟨caller, some dependency, linked⟩

/-- Links a caller to the callees that succeeded, then reports those that failed. -/
def linkOutcomes (net : CallNetwork) (caller : NodeId) (outcomes : Outcomes NodeId) :
    ImpactProgram DependencyLink := do
  let link ← ImpactProgram.ofStore (linkDependency net caller outcomes.successes)
  let _ ← ImpactProgram.ofResult outcomes.result
  return link

/-- Records that a symbol calls others. The caller must exist; callees that do not are reported
after the others have been linked. -/
def addCalls (caller : String) (callees : List String) : ImpactProgram DependencyLink := do
  let id ← ImpactProgram.findSymbol caller
  let outcomes ← ImpactProgram.collect (fun callee => s!"symbol '{callee}'")
    ImpactProgram.findSymbol {} callees
  linkOutcomes .code id outcomes

end Inventory

end BlastRadius
