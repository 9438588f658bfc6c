import BlastRadius.Proofs.Store.OpenLevels
import BlastRadius.Proofs.Store.Statements

/-!
A connection to a database whose statements fail. A script says which of them do, by their numbers,
what they report, and what they leave of the engine: a statement may fail before it is carried out
or after that, and it may take a whole transaction with it. Under an empty script this is the
connection that makes its calls statement by statement.

Whatever the script, the connection and the store in front of it count the same levels in all
states of a conversation.
-/

namespace BlastRadius

variable {α : Type}

/-- What a statement reports that fails, and what it leaves of the engine. -/
structure Mishap where
  error : StoreError
  leaves : Engine → Engine

/-- A connection that numbers its statements in their order. Those of a call that are not about
transactions have one number. -/
structure Faltering where
  connection : Connection := {}
  /-- The number of the next statement. -/
  position : Nat := 0
  /-- How many calls were made. -/
  asked : Nat := 0

namespace Faltering

def depth (s : Faltering) : Nat := s.connection.depth

def setDepth (depth : Nat) (s : Faltering) : Faltering :=
  { s with connection := { s.connection with depth := depth } }

section Store

variable (script : Nat → Option Mishap)

/-- Does some work on the engine, unless the script has a mishap in its place. -/
def attempt (work : Engine → Outcome Engine α) (s : Faltering) : Outcome Faltering α :=
  let done :=
    match script s.position with
    | none => work s.connection.engine
    | some mishap => (.error mishap.error, mishap.leaves s.connection.engine)
  (done.1, { s with connection := ⟨done.2, s.connection.depth⟩, position := s.position + 1 })

/-- Executes statements up to the first that fails. -/
def executeAll : List Statement → Faltering → Outcome Faltering Unit
  | [], s => (.ok (), s)
  | statement :: rest, s =>
      match attempt script (Engine.executeAll [statement]) s with
      | (.error error, s) => (.error error, s)
      | (.ok _, s) => executeAll rest s

/-- Executes statements, and counts so many levels if they succeed, or if one of them fails. -/
def carryOut (statements : List Statement) (succeeded failed : Nat) (s : Faltering) :
    Outcome Faltering Unit :=
  let executed := executeAll script statements s
  (executed.1, executed.2.setDepth (if executed.1.isOk then succeeded else failed))

/-- A level is opened or committed when its statements succeed, and closed when it
is to be rolled back. -/
def control (request : Control) (s : Faltering) : Outcome Faltering Unit :=
  match request, s.depth with
  | .begin, depth => carryOut script (Connection.opening depth) (depth + 1) depth s
  | .commit, level + 1 => carryOut script (Connection.committing level) level (level + 1) s
  | .rollback, level + 1 => carryOut script (Connection.undoing level) level level s
  | .commit, 0 | .rollback, 0 => (.error .noTransaction, s)

/-- The statements of a call that are not about transactions. -/
def statements (q : Call) : Faltering → Outcome Faltering q.Reply :=
  attempt script fun engine =>
    let answered := Connection.statements q { engine := engine }
    (answered.1, answered.2.engine)

/-- A call that takes many statements runs them in a level of their own. -/
def call (q : Call) (s : Faltering) : Outcome Faltering q.Reply :=
  let answered :=
    if q.grouped then Store.transaction (control script) (statements script q) s
    else statements script q s
  (answered.1, { answered.2 with asked := s.asked + 1 })

/-- The store whose statements fail as a script says. -/
def store : Store Faltering := .plain (control script) (call script)

end Store

variable {script : Nat → Option Mishap}

theorem executeAll_of_none (statements : List Statement) (s : Faltering) :
    Engine.executeAll statements s.connection.engine =
      (executeAll (fun _ => none) statements s).map id fun s => s.connection.engine := by
  induction statements generalizing s with
  | nil => rfl
  | cons statement rest ih =>
      simp only [executeAll, attempt, Engine.executeAll]
      rcases s.connection.engine.execute statement with error | engine
      · rfl
      · exact ih { s with
          connection := ⟨engine, s.connection.depth⟩
          position := s.position + 1 }

theorem carryOut_of_none (statements : List Statement) (succeeded failed : Nat) (s : Faltering) :
    (carryOut (fun _ => none) statements succeeded failed s).map id connection =
      let executed := Engine.executeAll statements s.connection.engine
      (executed.1, ⟨executed.2, if executed.1.isOk then succeeded else failed⟩) := by
  rw [executeAll_of_none]
  rfl

theorem control_of_none (request : Control) (s : Faltering) :
    Connection.control request s.connection =
      (control (fun _ => none) request s).map id connection := by
  obtain ⟨⟨engine, level⟩, position, asked⟩ := s
  cases request with
  | begin => exact (carryOut_of_none _ _ _ _).symm
  | commit =>
      obtain _ | level := level
      · rfl
      · exact (carryOut_of_none _ _ _ _).symm
  | rollback =>
      obtain _ | level := level
      · rfl
      · refine Eq.trans ?_ (carryOut_of_none _ _ _ _).symm
        simp only [ite_self]
        rfl

/-- Without mishaps, it is the connection. -/
theorem mirrors : Connection.stepwise.Mirrors (store fun _ => none) connection where
  control := control_of_none
  call q s := by
    have single (s : Faltering) : Connection.statements q s.connection =
        (statements (fun _ => none) q s).map id connection := by
      cases q <;> rfl
    change (if q.grouped then Store.transaction Connection.control (Connection.statements q)
        s.connection
      else Connection.statements q s.connection) =
      ((if q.grouped then Store.transaction (control fun _ => none) (statements (fun _ => none) q) s
        else statements (fun _ => none) q s).map id connection)
    split
    · exact Store.transaction_image control_of_none single s
    · exact single s

/-- It is enough that a request names the right levels: which of them counts goes by the answer. -/
theorem carryOut_counted {request : Control} {level succeeded failed : Nat}
    (success : request.levels? (.ok ()) level = some succeeded)
    (failure : ∀ error, request.levels? (.error error) level = some failed)
    (statements : List Statement) (s : Faltering) :
    depth (carryOut script statements succeeded failed s).2 =
      (request.levels? (carryOut script statements succeeded failed s).1 level).getD 0 := by
  rw [carryOut]
  rcases executeAll script statements s with ⟨error | _, s'⟩
  · exact (congrArg (Option.getD · 0) (failure error)).symm
  · exact (congrArg (Option.getD · 0) success).symm

theorem control_counted (script : Nat → Option Mishap) :
    Control.Counted (control script) depth := by
  rintro request ⟨⟨engine, level⟩, position, asked⟩
  cases request with
  | begin => exact carryOut_counted rfl (fun _ => rfl) _ _
  | commit =>
      obtain _ | level := level
      · rfl
      · exact carryOut_counted rfl (fun _ => rfl) _ _
  | rollback =>
      obtain _ | level := level
      · rfl
      · exact carryOut_counted rfl (fun _ => rfl) _ _

theorem countsLevels (script : Nat → Option Mishap) : (store script).CountsLevels depth where
  control := control_counted script
  refuses {request s} closing none := by
    obtain ⟨⟨engine, level⟩, position, asked⟩ := s
    obtain rfl : level = 0 := none
    cases request with
    | begin => exact absurd rfl closing
    | _ => rfl
  call q s := by
    change (if q.grouped then Store.transaction (control script) (statements script q) s
      else statements script q s).2.depth = s.depth
    split
    · exact (control_counted script).transaction (fun _ => rfl) s
    · rfl

/-- The store in front and the connection behind it agree on what levels are open, in all states of
a conversation, whatever statements fail on the way. -/
theorem levels_agree (policy : RetryPolicy) (script : Nat → Option Mishap) (d : Conversation α)
    {t : Retrying Faltering} (agrees : t.Agrees depth) :
    d.Visits policy (store script) t (d.run (Retrying.store policy (store script)) t).2 ∧
      ∀ u, d.Visits policy (store script) t u →
        u.Consistent policy (store script) depth Faltering.asked := by
  refine ⟨d.visits_run t, ?_⟩
  intro u visits
  have counts := countsLevels script
  exact (agrees.visited counts visits).consistent counts fun _ _ => rfl

/-- The first statement finds the database busy. So does the fourth, and the transaction is lost. -/
def losing (position : Nat) : Option Mishap :=
  if position = 0 ∨ position = 3 then
    some ⟨.engine (some 5) "database is locked", fun engine => { tables := engine.tables }⟩
  else none

/-- A block that opens a level and does not close it. -/
def unclosed : Conversation (Except StoreError Nat) :=
  .atomically (.control .begin fun _ => .call .clearMarks .done) .done

def fresh : Retrying Faltering := ⟨{}, 0⟩

/-- The second attempt at the block loses its transaction with two levels open. The third one
begins with one of them. -/
theorem levels_agree_of_lost_transaction :
    fresh.Agrees depth ∧
      ((unclosed.run (Retrying.store {} (store losing)) fresh).2.depth = 2 ∧
        (unclosed.run (Retrying.store {} (store losing)) fresh).2.Consistent
          {} (store losing) depth Faltering.asked) ∧
      ∃ u, unclosed.Visits {} (store losing) fresh u ∧
        (u.depth = 2 ∧ u.inner.connection.engine.frames = []) ∧
          u.Consistent {} (store losing) depth Faltering.asked := by
  obtain ⟨ends, agree⟩ := levels_agree {} losing unclosed (show fresh.Agrees depth from rfl)
  obtain ⟨u, visits, level, lost⟩ : ∃ u, unclosed.Visits {} (store losing) fresh u ∧
      u.depth = 2 ∧ u.inner.connection.engine.frames = [] := by
    refine ⟨_, .within (.again ?_ (.first _ _)) rfl
      (.control rfl (.call rfl (.here _ _))), ?_, ?_⟩
    · decide +kernel
    · decide +kernel
    · rfl
  exact ⟨rfl, ⟨by decide +kernel, agree _ ends⟩, u, visits, ⟨level, lost⟩,
    agree u visits⟩

end Faltering

end BlastRadius
