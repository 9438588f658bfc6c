import BlastRadius.Proofs.Store.Levels

/-!
How a connection keeps levels in a database engine. The engine knows one transaction and, within it,
savepoints that go by their names. The connection opens its outermost level as the transaction and
each further one as a savepoint that is named after the number of levels below it, which it counts
by itself. Calls that take several statements run in a level of their own.

A database with a stack of tables to return to is what such a connection amounts to.
-/

namespace BlastRadius

inductive Statement where
  | beginTransaction
  | commit
  | rollback
  | savepoint (name : String)
  /-- Forgets a savepoint and those within it. -/
  | release (name : String)
  /-- Returns to a savepoint, which stays. -/
  | rollbackTo (name : String)

/-- The tables, and those to which the savepoints and the transaction return, the innermost first.
The transaction has no name. -/
structure Engine where
  tables : Tables := {}
  frames : List (Option String × Tables) := []

namespace Engine

/-- The innermost savepoint with a name, and what it lies in. -/
def framesFrom (engine : Engine) (name : String) : List (Option String × Tables) :=
  engine.frames.dropWhile fun frame => frame.1 != some name

def execute (engine : Engine) : Statement → Except StoreError Engine
  | .beginTransaction =>
      match engine.frames with
      | [] => .ok { engine with frames := [(none, engine.tables)] }
      | _ => .error (.engine (some 1) "cannot start a transaction within a transaction")
  | .commit =>
      match engine.frames with
      | [] => .error (.engine (some 1) "cannot commit - no transaction is active")
      | _ => .ok { engine with frames := [] }
  | .rollback =>
      match engine.frames.getLast? with
      | none => .error (.engine (some 1) "cannot rollback - no transaction is active")
      | some frame => .ok { tables := frame.2 }
  | .savepoint name => .ok { engine with frames := (some name, engine.tables) :: engine.frames }
  | .release name =>
      match engine.framesFrom name with
      | [] => .error (.engine (some 1) s!"no such savepoint: {name}")
      | _ :: frames => .ok { engine with frames := frames }
  | .rollbackTo name =>
      match engine.framesFrom name with
      | [] => .error (.engine (some 1) s!"no such savepoint: {name}")
      | frame :: frames => .ok ⟨frame.2, frame :: frames⟩

/-- Executes statements up to the first that fails. -/
def executeAll : List Statement → Engine → Outcome Engine Unit
  | [], engine => (.ok (), engine)
  | statement :: rest, engine =>
      match engine.execute statement with
      | .error error => (.error error, engine)
      | .ok engine => executeAll rest engine

end Engine

/-- Whether a call takes several statements. -/
def Call.grouped : Call → Bool
  | markNodes ids => !ids.isEmpty
  | removeKind _ | reset => true
  | _ => false

/-- An engine and the number of open levels. -/
structure Connection where
  engine : Engine := {}
  depth : Nat := 0

namespace Connection

def savepointName (level : Nat) : String := s!"sp_{level}"

def opening : Nat → List Statement
  | 0 => [.beginTransaction]
  | level => [.savepoint (savepointName level)]

def committing : Nat → List Statement
  | 0 => [.commit]
  | level => [.release (savepointName level)]

def undoing : Nat → List Statement
  | 0 => [.rollback]
  | level => [.rollbackTo (savepointName level), .release (savepointName level)]

/-- A level that cannot be opened or committed is not counted as open or closed; one that is rolled
back is closed in any case. -/
def control (request : Control) (connection : Connection) : Outcome Connection Unit :=
  match request, connection.depth with
  | .begin, depth =>
      let executed := Engine.executeAll (opening depth) connection.engine
      (executed.1, ⟨executed.2, if executed.1.isOk then depth + 1 else depth⟩)
  | .commit, level + 1 =>
      let executed := Engine.executeAll (committing level) connection.engine
      (executed.1, ⟨executed.2, if executed.1.isOk then level else level + 1⟩)
  | .rollback, level + 1 =>
      let executed := Engine.executeAll (undoing level) connection.engine
      (executed.1, ⟨executed.2, level⟩)
  | .commit, 0 | .rollback, 0 => (.error .noTransaction, connection)

/-- The statements of a call, which leave transactions alone. -/
def perform (q : Call) (connection : Connection) : Outcome Connection q.Reply :=
  let answered := Database.call q { tables := connection.engine.tables }
  (answered.1, ⟨{ connection.engine with tables := answered.2.tables }, connection.depth⟩)

def call (q : Call) (connection : Connection) : Outcome Connection q.Reply :=
  if q.grouped then Store.transaction control (perform q) connection else perform q connection

def store : Store Connection := .plain control call

/-- The frames of levels with the given tables to return to. -/
def frames : List Tables → List (Option String × Tables)
  | [] => []
  | [tables] => [(none, tables)]
  | tables :: below :: rest =>
      (some (savepointName (rest.length + 1)), tables) :: frames (below :: rest)

/-- The connection to a database with the given tables and levels. -/
def ofDatabase (db : Database) : Connection where
  engine := { tables := db.tables, frames := frames db.savepoints }
  depth := db.savepoints.length

theorem framesFrom_frames (tables saved below : Tables) (rest : List Tables) :
    Engine.framesFrom ⟨tables, frames (saved :: below :: rest)⟩
      (savepointName (rest.length + 1)) =
      frames (saved :: below :: rest) := by
  rw [Engine.framesFrom, frames, List.dropWhile_cons, bne_self_eq_false]
  rfl

theorem executeAll_committing (tables saved : Tables) (rest : List Tables) :
    Engine.executeAll (committing rest.length) ⟨tables, frames (saved :: rest)⟩ =
      (.ok (), ⟨tables, frames rest⟩) := by
  obtain _ | ⟨below, rest⟩ := rest
  · rfl
  · change Engine.executeAll [.release (savepointName (rest.length + 1))] _ = _
    rw [Engine.executeAll, Engine.execute, framesFrom_frames]
    rfl

theorem executeAll_undoing (tables saved : Tables) (rest : List Tables) :
    Engine.executeAll (undoing rest.length) ⟨tables, frames (saved :: rest)⟩ =
      (.ok (), ⟨saved, frames rest⟩) := by
  obtain _ | ⟨below, rest⟩ := rest
  · rfl
  · change Engine.executeAll [.rollbackTo (savepointName (rest.length + 1)), _] _ = _
    rw [Engine.executeAll, Engine.execute, framesFrom_frames]
    exact executeAll_committing saved saved (below :: rest)

theorem control_ofDatabase (request : Control) (db : Database) :
    control request (ofDatabase db) = (Database.control request db).map id ofDatabase := by
  obtain ⟨tables, savepoints⟩ := db
  cases request with
  | begin => rcases savepoints with _ | ⟨saved, rest⟩ <;> rfl
  | commit =>
      obtain _ | ⟨saved, rest⟩ := savepoints
      · rfl
      · have executed := executeAll_committing tables saved rest
        simp only [control, ofDatabase, List.length_cons, executed]
        rfl
  | rollback =>
      obtain _ | ⟨saved, rest⟩ := savepoints
      · rfl
      · have executed := executeAll_undoing tables saved rest
        simp only [control, ofDatabase, List.length_cons, executed]
        rfl

/-- What a call answers and does to the tables does not depend on the open levels. -/
theorem call_levels (q : Call) (tables : Tables) (savepoints : List Tables) :
    Database.call q ⟨tables, savepoints⟩ = ((Database.call q { tables := tables }).1,
      ⟨(Database.call q { tables := tables }).2.tables, savepoints⟩) := by
  have changed {α : Type} (result : Except StoreError (α × Tables)) :
      Database.change ⟨tables, savepoints⟩ result =
        ((Database.change { tables := tables } result).1,
          ⟨(Database.change { tables := tables } result).2.tables, savepoints⟩) := by
    rcases result with _ | ⟨_, _⟩ <;> rfl
  cases q <;> first | rfl | exact changed _

theorem call_error {q : Call} {db db' : Database} {error : StoreError}
    (failed : Database.call q db = (.error error, db')) : db' = db := by
  have changed {α : Type} {result : Except StoreError (α × Tables)}
      (failed : db.change result = (.error error, db')) : db' = db := by
    rcases result with _ | ⟨_, _⟩ <;> cases failed
    rfl
  cases q <;> first | exact changed failed | exact (congrArg Prod.snd failed).symm | cases failed

theorem perform_ofDatabase (q : Call) (db : Database) :
    perform q (ofDatabase db) = (Database.call q db).map id ofDatabase := by
  obtain ⟨tables, savepoints⟩ := db
  rw [call_levels q tables savepoints]
  rfl

theorem transaction_call (q : Call) (db : Database) :
    Store.transaction Database.control (Database.call q) db = Database.call q db := by
  obtain ⟨tables, savepoints⟩ := db
  rcases answered : Database.call q { tables := tables } with ⟨result, left⟩
  have inner : Database.call q ⟨tables, tables :: savepoints⟩ =
      (result, ⟨left.tables, tables :: savepoints⟩) := by rw [call_levels, answered]
  have outer : Database.call q ⟨tables, savepoints⟩ =
      (result, ⟨left.tables, savepoints⟩) := by
    rw [call_levels, answered]
  have begun : Database.control .begin ⟨tables, savepoints⟩ =
      (.ok (), ⟨tables, tables :: savepoints⟩) := rfl
  rw [Store.transaction, begun, outer]
  simp only [inner]
  cases result with
  | error error =>
      obtain rfl := call_error answered
      rfl
  | ok value => rfl

theorem call_ofDatabase (q : Call) (db : Database) :
    call q (ofDatabase db) = (Database.call q db).map id ofDatabase := by
  rw [call]
  split
  · rw [Store.transaction_image control_ofDatabase (perform_ofDatabase q), transaction_call]
  · exact perform_ofDatabase q db

theorem mirrors : store.Mirrors Database.store ofDatabase :=
  ⟨control_ofDatabase, call_ofDatabase⟩

end Connection

end BlastRadius
