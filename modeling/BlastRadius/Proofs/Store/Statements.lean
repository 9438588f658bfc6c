import BlastRadius.Proofs.Store.Savepoints

/-!
The statements that write rows one at a time. What turns out to be amiss halfway is taken back: a
new row whose number is no identifier is deleted again, and nodes are marked in a level that is
rolled back when one of them does not exist. What remains is what the calls as a whole do.
-/

namespace BlastRadius

namespace Tables

/-- The rows have different numbers, and the greatest comes last. -/
def Numbered (tables : Tables) : Prop := tables.nodes.Pairwise fun a b => a.id < b.id

/-- Appends the row of a node, unless another row has its key, and says whether it did. -/
def insertRow (tables : Tables) (node : Node) : Bool × Tables :=
  let key := node.key?.map NodeKey.canonical
  if tables.keyTaken key then (false, tables)
  else
    let row : NodeRow :=
      { id := tables.nextNumber, kind := node.kind.name, uniqueKey := key, json := node.toText }
    (true, { tables with nodes := tables.nodes ++ [row] })

/-- Deletes the rows with a number, and the edges that refer to them. -/
def deleteRow (tables : Tables) (number : Int) : Tables where
  nodes := tables.nodes.filter fun row => row.id != number
  edges := tables.edges.filter fun e => (e.source.toNat : Int) != number &&
    (e.target.toNat : Int) != number

/-- Inserts a row, and deletes it again when its number turns out to be no identifier. -/
def insertOrDelete (node : Node) (tables : Tables) : Outcome Tables NodeId :=
  match tables.insertRow node with
  | (false, left) => (.error (.uniqueViolation ((node.key?.map NodeKey.canonical).getD "")), left)
  | (true, left) =>
      match NodeId.ofInt? tables.nextNumber with
      | some id => (.ok id, left)
      | none => (.error (.idOverflow tables.nextNumber), left.deleteRow tables.nextNumber)

variable {tables : Tables}

theorem Numbered.lt_nextNumber (numbered : tables.Numbered) {row : NodeRow}
    (mem : row ∈ tables.nodes) :
    row.id < tables.nextNumber := by
  obtain ⟨nodes, edges⟩ := tables
  obtain rfl | ⟨rest, last, rfl⟩ := List.eq_nil_or_concat' nodes
  · cases mem
  · rw [nextNumber, List.getLast?_concat]
    rcases List.mem_append.mp mem with mem | mem
    · exact ((List.pairwise_append.mp numbered).2.2 row mem last (by simp)).trans
        (Int.lt_succ last.id)
    · rw [List.mem_singleton.mp mem]
      exact Int.lt_succ last.id

theorem Numbered.deleteRow_insertRow (numbered : tables.Numbered) {row : NodeRow}
    (number : row.id = tables.nextNumber) (noId : NodeId.ofInt? tables.nextNumber = none) :
    deleteRow { tables with nodes := tables.nodes ++ [row] } tables.nextNumber = tables := by
  obtain ⟨nodes, edges⟩ := tables
  have others : nodes.filter (fun row => row.id != nextNumber ⟨nodes, edges⟩) = nodes := by
    rw [List.filter_eq_self]
    intro other mem
    exact bne_iff_ne.mpr (numbered.lt_nextNumber mem).ne
  have elsewhere (id : NodeId) : (id.toNat : Int) ≠ nextNumber ⟨nodes, edges⟩ := by
    intro same
    rw [← same, NodeId.ofInt?, if_pos ⟨Int.natCast_nonneg _,
      Int.ofNat_lt.mpr id.toNat_lt⟩] at noId
    cases noId
  rw [deleteRow, List.filter_append, others]
  simp [number, elsewhere]

def marking (ids : List NodeId) (row : NodeRow) : NodeRow :=
  if isListed ids row then { row with marked := true } else row

/-- Whether a row belongs to a node and is not marked. -/
def changes (id : NodeId) (row : NodeRow) : Bool := row.id == id.toNat && !row.marked

def changed (id : NodeId) (row : NodeRow) : NodeRow :=
  if changes id row then { row with marked := true } else row

/-- Marks the row of a node if it is not marked, and says how many rows were changed. -/
def markRow (tables : Tables) (id : NodeId) : Nat × Tables :=
  (tables.nodes.countP (changes id), { tables with nodes := tables.nodes.map (changed id) })

/-- Marks nodes one by one, up to the first that does not exist, and counts the rows that change. -/
def markEach (newly : Nat) : List NodeId → Tables → Outcome Tables Nat
  | [], tables => (.ok newly, tables)
  | id :: rest, tables =>
      let changed := tables.markRow id
      if changed.1 == 0 && (changed.2.row? id).isNone then (.error (.nodeNotFound id), changed.2)
      else markEach (newly + changed.1) rest changed.2

theorem changed_id (id : NodeId) (row : NodeRow) : (changed id row).id = row.id := by
  rw [changed]
  split <;> rfl

theorem changed_marked (id : NodeId) (row : NodeRow) :
    (changed id row).marked = (row.marked || row.id == id.toNat) := by
  obtain ⟨number, kind, key, json, marked⟩ := row
  rw [changed, changes]
  cases marked <;> cases number == (id.toNat : Int) <;> rfl

theorem row?_isNone (tables : Tables) (id : NodeId) :
    (tables.row? id).isNone = !tables.nodes.any fun row => row.id == id.toNat := by
  rw [row?, Bool.eq_iff_iff, Option.isNone_iff_eq_none, List.find?_eq_none]
  simp

theorem markRow_row?_isNone (tables : Tables) (id other : NodeId) :
    ((tables.markRow id).2.row? other).isNone = (tables.row? other).isNone := by
  rw [row?_isNone, row?_isNone, markRow, List.any_map]
  simp only [Function.comp_def, changed_id]

theorem markRow_missing (tables : Tables) (id : NodeId) :
    ((tables.markRow id).1 == 0 && ((tables.markRow id).2.row? id).isNone) =
      (tables.row? id).isNone := by
  rw [markRow_row?_isNone]
  cases missing : (tables.row? id).isNone with
  | false => exact Bool.and_false _
  | true =>
      rw [row?_isNone, Bool.not_eq_true', List.any_eq_false] at missing
      have none : (tables.markRow id).1 = 0 := by
        rw [markRow, List.countP_eq_zero]
        intro row mem
        simp [changes, missing row mem]
      rw [none]
      rfl

theorem countP_eq_add {α : Type} {p q r : α → Bool} {l : List α}
    (split : ∀ x ∈ l, (p x).toNat = (q x).toNat + (r x).toNat) :
    l.countP p = l.countP q + l.countP r := by
  induction l with
  | nil => rfl
  | cons x rest ih =>
      have head := split x List.mem_cons_self
      have tail := ih fun y mem => split y (List.mem_cons_of_mem x mem)
      have ones (b : Bool) : (if b = true then 1 else 0) = b.toNat := by cases b <;> rfl
      rw [List.countP_cons, List.countP_cons, List.countP_cons, ones, ones, ones, head, tail]
      omega

theorem markNodes_cons (tables : Tables) (id : NodeId) (rest : List NodeId) :
    (tables.nodes.countP fun row => !row.marked && isListed (id :: rest) row) =
        (tables.markRow id).1 +
          (tables.markRow id).2.nodes.countP (fun row => !row.marked && isListed rest row) ∧
      tables.nodes.map (marking (id :: rest)) = (tables.markRow id).2.nodes.map (marking rest) := by
  have listed (row : NodeRow) :
      isListed (id :: rest) row = (row.id == id.toNat || isListed rest row) := rfl
  have kept (row : NodeRow) : isListed rest (changed id row) = isListed rest row := by
    rw [isListed, changed_id]
    rfl
  constructor
  · rw [markRow, List.countP_map]
    refine countP_eq_add fun row _ => ?_
    rw [listed, Function.comp_apply, kept, changed_marked, changes]
    cases row.marked <;> cases row.id == (id.toNat : Int) <;> cases isListed rest row <;> rfl
  · rw [markRow, List.map_map]
    refine List.map_congr_left fun row _ => ?_
    rw [Function.comp_apply, marking, marking, kept, listed, changed, changes]
    obtain ⟨number, kind, key, json, marked⟩ := row
    cases marked <;> cases number == (id.toNat : Int) <;> cases isListed rest _ <;> rfl

/-- Marking one node after the other ends as marking them together does, but for the marks that it
leaves when it fails. -/
theorem markEach_cases (newly : Nat) (ids : List NodeId) (tables : Tables) :
    (∃ missing left, ids.find? (fun id => (tables.row? id).isNone) = some missing ∧
      tables.markEach newly ids = (.error (.nodeNotFound missing), left)) ∨
    ids.find? (fun id => (tables.row? id).isNone) = none ∧
      tables.markEach newly ids =
        (.ok (newly + tables.nodes.countP fun row => !row.marked && isListed ids row),
          { tables with nodes := tables.nodes.map (marking ids) }) := by
  induction ids generalizing newly tables with
  | nil =>
      refine Or.inr ⟨rfl, ?_⟩
      have same : tables.nodes.map (marking []) = tables.nodes :=
        (List.map_congr_left fun _ _ => rfl).trans (List.map_id _)
      have none : (tables.nodes.countP fun row => !row.marked && isListed [] row) = 0 :=
        List.countP_eq_zero.mpr fun row _ => by simp [isListed]
      rw [markEach, same, none]
      rfl
  | cons id rest ih =>
      rw [markEach, markRow_missing]
      cases missing : (tables.row? id).isNone with
      | true => exact Or.inl ⟨id, _, List.find?_cons_of_pos missing, rfl⟩
      | false =>
          rw [List.find?_cons_of_neg (by simp [missing])]
          obtain ⟨count, nodes⟩ := markNodes_cons tables id rest
          have later := ih (newly + (tables.markRow id).1) (tables.markRow id).2
          simp only [markRow_row?_isNone, Nat.add_assoc, ← count, ← nodes] at later
          exact later

end Tables

namespace Database

/-- Runs statements on the tables. What they leave stays, also when they fail. -/
def alter {α : Type} (statements : Tables → Outcome Tables α) (db : Database) :
    Outcome Database α :=
  let answered := statements db.tables
  (answered.1, { db with tables := answered.2 })

variable {db : Database}

theorem alter_insertOrDelete (numbered : db.tables.Numbered) (node : Node) :
    alter (Tables.insertOrDelete node) db = call (.insertNode node) db := by
  obtain ⟨tables, savepoints⟩ := db
  rw [alter, call, Tables.insertOrDelete, Tables.insertRow, Tables.insertNode]
  by_cases taken : tables.keyTaken (node.key?.map NodeKey.canonical) = true
  · rw [if_pos taken, if_pos taken]
    rfl
  · rw [if_neg taken, if_neg taken]
    cases number : NodeId.ofInt? tables.nextNumber with
    | some id => rfl
    | none =>
        exact congrArg (fun left => (_, Database.mk left savepoints))
          (numbered.deleteRow_insertRow rfl number)

theorem transaction_markEach (ids : List NodeId) :
    Store.transaction control (alter (Tables.markEach 0 ids)) db = call (.markNodes ids) db := by
  obtain ⟨tables, savepoints⟩ := db
  have begun : control .begin ⟨tables, savepoints⟩ =
      (.ok (), ⟨tables, tables :: savepoints⟩) := rfl
  rw [Store.transaction, begun, call, Tables.markNodes]
  dsimp only [alter]
  rcases tables.markEach_cases 0 ids with ⟨missing, left, found, failed⟩ | ⟨found, done⟩
  · rw [failed, found]
    rfl
  · rw [done, found, Nat.zero_add, List.countP_eq_length_filter]
    rfl

theorem alter_markEach_nil : alter (Tables.markEach 0 []) db = call (.markNodes []) db := by
  rcases db.tables.markEach_cases 0 [] with ⟨_, _, found, _⟩ | ⟨_, done⟩
  · cases found
  · rw [alter, done, Nat.zero_add, List.countP_eq_length_filter]
    rfl

end Database

namespace Connection

/-- Runs statements on the tables. What they leave stays, also when they fail. -/
def alter {α : Type} (statements : Tables → Outcome Tables α) (connection : Connection) :
    Outcome Connection α :=
  let answered := statements connection.engine.tables
  (answered.1, { connection with engine := { connection.engine with tables := answered.2 } })

/-- The statements of a call, one after the other. -/
def statements (q : Call) (connection : Connection) : Outcome Connection q.Reply :=
  match q with
  | .insertNode node => connection.alter (Tables.insertOrDelete node)
  | .markNodes ids => connection.alter (Tables.markEach 0 ids)
  | q => connection.perform q

/-- The connection with the statements of each call, in a level of their own if they are many. -/
def stepwise : Store Connection :=
  .plain control fun q connection =>
    if q.grouped then Store.transaction control (statements q) connection
    else connection.statements q

theorem alter_ofDatabase {α : Type} (statements : Tables → Outcome Tables α) (db : Database) :
    alter statements (ofDatabase db) = (Database.alter statements db).map id ofDatabase := rfl

/-- Statement by statement, a connection does what the database does as a whole. -/
theorem stepwise_ofDatabase {db : Database} (numbered : db.tables.Numbered) (q : Call) :
    stepwise.call q (ofDatabase db) = (Database.call q db).map id ofDatabase := by
  cases q with
  | insertNode node =>
      change alter (Tables.insertOrDelete node) (ofDatabase db) = _
      rw [alter_ofDatabase, Database.alter_insertOrDelete numbered]
  | markNodes ids =>
      obtain _ | ⟨id, rest⟩ := ids
      · change alter (Tables.markEach 0 []) (ofDatabase db) = _
        rw [alter_ofDatabase, Database.alter_markEach_nil]
      · change Store.transaction control (alter (Tables.markEach 0 (id :: rest)))
            (ofDatabase db) = _
        rw [Store.transaction_image control_ofDatabase (alter_ofDatabase _),
          Database.transaction_markEach]
  | removeKind kind => exact call_ofDatabase (.removeKind kind) db
  | reset => exact call_ofDatabase .reset db
  | _ => exact call_ofDatabase _ db

end Connection

end BlastRadius
