import BlastRadius.Impact.Outcomes
import BlastRadius.Store.Program

/-!
Programs that stop at the first failed operation, and what such programs are built from.
-/

namespace BlastRadius

/-- A program that answers with an `α` or an error of the operation. -/
abbrev ImpactProgram := ExceptT ImpactError Program

namespace StoreProgram

variable {α τ : Type}

/-- Runs `f` on every element and joins the answers. -/
def gather (f : τ → StoreProgram (List α)) : List τ → StoreProgram (List α)
  | [] => return []
  | element :: rest => do
      let found ← f element
      let others ← gather f rest
      return found ++ others

/-- Runs `f` on every element and lists the answers. -/
def each (f : τ → StoreProgram α) : List τ → StoreProgram (List α)
  | [] => return []
  | element :: rest => do
      let value ← f element
      let values ← each f rest
      return value :: values

/-- The first element for which `p` holds. -/
def first? (p : τ → StoreProgram Bool) : List τ → StoreProgram (Option τ)
  | [] => return none
  | element :: rest => do
      if ← p element then return some element
      else first? p rest

/-- The elements for which `p` holds. -/
def keep (p : τ → StoreProgram Bool) : List τ → StoreProgram (List τ)
  | [] => return []
  | element :: rest => do
      let holds ← p element
      let others ← keep p rest
      return if holds then element :: others else others

end StoreProgram

namespace ImpactProgram

variable {α τ : Type}

/-- A store program whose errors are reported as such. -/
def ofStore (program : StoreProgram α) : ImpactProgram α :=
  ExceptT.mk ((fun result => result.mapError ImpactError.store) <$> program.run)

instance : MonadLift StoreProgram ImpactProgram := ⟨ofStore⟩

def ofResult (result : Except ImpactError α) : ImpactProgram α :=
  ExceptT.mk (Program.done result)

def call (c : Call) : ImpactProgram c.Reply := ofStore (StoreProgram.call c)

/-- The answer that a program gives or the error that it stops with. -/
def attempt (program : ImpactProgram α) : ImpactProgram (Except ImpactError α) :=
  ExceptT.mk (Except.ok <$> program.run)

/-- Tries every target and adds its outcome. -/
def collect (describe : τ → String) (act : τ → ImpactProgram α) :
    Outcomes α → List τ → ImpactProgram (Outcomes α)
  | outcomes, [] => return outcomes
  | outcomes, target :: rest => do
      let result ← attempt (act target)
      collect describe act (outcomes.record (describe target) result) rest

/-- The node with a key, reported as `shown` when there is none. -/
def findAs (key : NodeKey) (shown : String) : ImpactProgram NodeId := do
  match ← call (.findNode key) with
  | some id => return id
  | none => throw (.notFound key.kind shown)

def findArtifact (key : NodeKey) : ImpactProgram NodeId := findAs key (toString key)

def findSymbol (identity : String) : ImpactProgram NodeId := findAs (.symbol identity) identity

/-- Refuses a request that does not satisfy `holds`. -/
def require (holds : Bool) (reason : String) : ImpactProgram Unit :=
  if holds then return () else throw (.invalid reason)

end ImpactProgram

end BlastRadius
