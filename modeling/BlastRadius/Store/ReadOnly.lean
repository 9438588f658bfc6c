import BlastRadius.Store.Database

/-!
The store in a database that may not be written to. Questions are answered as ever, transactions
are opened and closed, and a change is refused as soon as it would be made: what is checked before
that is still checked. Main statement: `readOnlyCall_state`, by which no call changes anything.
-/

namespace BlastRadius.Database

/-- The engine's refusal to write. -/
def writeRefused : StoreError := .engine (some 8) "attempt to write a readonly database"

/-- Answers a call without changing anything. -/
def readOnlyCall (c : Call) (db : Database) : Outcome Database c.Reply :=
  match c with
  | .insertNode _ | .clearMarks | .removeKind _ | .reset => (.error writeRefused, db)
  | .insertEdge edge =>
      match db.tables.insertEdge edge with
      | .error error => (.error error, db)
      | .ok _ => (.error writeRefused, db)
  | .markNodes ids => if ids.isEmpty then (.ok 0, db) else (.error writeRefused, db)
  | .getNode id => call (.getNode id) db
  | .nodeKind id => call (.nodeKind id) db
  | .findNode key => call (.findNode key) db
  | .nodesOfKind kind => call (.nodesOfKind kind) db
  | .targets id relation => call (.targets id relation) db
  | .sources id relation => call (.sources id relation) db
  | .isMarked id => call (.isMarked id) db
  | .markedNodes kind => call (.markedNodes kind) db
  | .loadGraph => call .loadGraph db

/-- The store in a database that may not be written to. -/
def readOnlyStore : Store Database := .plain control readOnlyCall

/-- No call changes a database that may not be written to. -/
theorem readOnlyCall_state (c : Call) (db : Database) : (readOnlyCall c db).2 = db := by
  cases c <;> simp only [readOnlyCall, call, ask] <;> (try split) <;> rfl

end BlastRadius.Database
