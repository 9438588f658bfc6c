import BlastRadius.Impact.Program
import BlastRadius.Node.Codec

/-!
Vulnerabilities and the seeding of a propagation. Only here are symbols marked directly: a new
vulnerability marks the symbol that it threatens, and a seed clears every mark and marks that
symbol alone.
-/

namespace BlastRadius

/-- The answer to the registration of a vulnerability. -/
inductive Registration where
  /-- A new vulnerability, whose symbol was marked. -/
  | created (vulnerability symbol : NodeId)
  /-- One that was there before; nothing changed. -/
  | existing (vulnerability : NodeId)
  deriving DecidableEq, Repr

namespace Registration

def vulnerability : Registration → NodeId
  | created id _ => id
  | existing id => id

def toJson : Registration → Json
  | created id symbol =>
      .obj [("status", .str "created"), ("vulnerability", id.toJson), ("symbol", symbol.toJson)]
  | existing id => .obj [("status", .str "existing"), ("vulnerability", id.toJson)]

end Registration

/-- The start of a propagation. -/
structure Seed where
  vulnerability : NodeId
  symbol : NodeId
  /-- How many marks were cleared. -/
  cleared : Nat
  deriving DecidableEq, Repr

def Seed.toJson (seed : Seed) : Json :=
  .obj [("vulnerability", seed.vulnerability.toJson), ("symbol", seed.symbol.toJson),
    ("cleared", .num seed.cleared)]

namespace Inventory

open StoreProgram (call)
open ImpactProgram (ofStore)

/-- Two identities match when they are equal or one of them is absent. -/
def identityMatches : Option String → Option String → Bool
  | some existing, some given => existing == given
  | _, _ => true

/-- An empty identity is as good as none. -/
def normalized (identity : Option String) : Option String :=
  identity.filter fun text => !text.isEmpty

/-- The first vulnerability whose identity satisfies `p`. -/
def findVulnerability (p : Option String → Bool) : StoreProgram (Option NodeId) := do
  let ids ← call (.nodesOfKind .vulnerability)
  StoreProgram.first? (fun id => do
    match ← call (.getNode id) with
    | .vulnerability identity => return p identity
    | _ => return false) ids

/-- Marks a symbol and inserts a vulnerability that threatens it. -/
def insertVulnerability (identity : Option String) (symbol : NodeId) :
    StoreProgram Registration := do
  let _ ← call (.markNodes [symbol])
  let id ← call (.insertNode (.vulnerability identity))
  let _ ← call (.insertEdge ⟨id, .threatens, symbol⟩)
  return .created id symbol

/-- Registers a vulnerability in one transaction. Nothing happens when there is one with a matching
identity; the symbol must exist otherwise. -/
def createVulnerability (identity : Option String) (symbol : String) :
    ImpactProgram Registration := do
  let identity := normalized identity
  let registered ← ofStore <| StoreProgram.atomically do
    match ← findVulnerability fun existing => identityMatches existing identity with
    | some id => return some (.existing id)
    | none =>
        match ← call (.findNode (.symbol symbol)) with
        | some target => some <$> insertVulnerability identity target
        | none => return none
  match registered with
  | some registration => return registration
  -- The transaction has changed nothing in this case.
  | none => throw (.notFound .symbol symbol)

/-- Clears every mark and marks the symbol threatened by the vulnerability with exactly this
identity. Both happen in one transaction. -/
def seed (identity : Option String) : ImpactProgram Seed := do
  let identity := normalized identity
  match ← ofStore (findVulnerability fun existing => existing == identity) with
  | none => throw (.notFound .vulnerability (identity.getD Node.unidentified))
  | some id =>
      match ← ofStore (call (.targets id .threatens)) with
      | [] => throw (.invalid s!"vulnerability {id} threatens no symbol")
      | symbol :: _ =>
          let cleared ← ofStore <| StoreProgram.atomically do
            let cleared ← call .clearMarks
            let _ ← call (.markNodes [symbol])
            return cleared
          return ⟨id, symbol, cleared⟩

end Inventory

end BlastRadius
