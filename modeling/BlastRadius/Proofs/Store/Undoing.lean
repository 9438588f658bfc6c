import BlastRadius.Proofs.Store.Reachable
import BlastRadius.Proofs.Store.Statements
import BlastRadius.Proofs.Store.Traces

/-!
Calls and requests that fail leave no trace, in whatever state and at whatever depth, also when the
table of nodes holds rows that were put there by other hands.
-/

namespace BlastRadius

/-- The marked nodes of a store. -/
def Store.marks {σ : Type} (store : Store σ) (s : σ) : Set NodeId :=
  {id | (store.call (.isMarked id) s).1 = .ok true}

/-- In a state, whatever fails leaves the store as it was: nodes, keys, edges, marks and
levels. Marking nodes marks exactly the listed ones besides those that were marked, and
counts those that were not. -/
structure Store.Traceless {σ : Type} (store : Store σ) (s : σ) : Prop where
  call {q : Call} {error : StoreError} : (store.call q s).1 = .error error →
    (store.call q s).2 = s
  control {request : Control} {error : StoreError} :
    (store.control request s).1 = .error error → (store.control request s).2 = s
  marks {ids : List NodeId} {n : Nat} : (store.call (.markNodes ids) s).1 = .ok n →
    store.marks (store.call (.markNodes ids) s).2 = store.marks s ∪ {id | id ∈ ids} ∧
      n = ({id | id ∈ ids} \ store.marks s).ncard

namespace Tables

variable {tables left : Tables}

theorem mem_planted {row other : NodeRow} {rows : List NodeRow} :
    other ∈ planted row rows ↔ other = row ∨ other ∈ rows := by
  induction rows with
  | nil => simp [planted]
  | cons first rest ih =>
      rw [planted]
      split
      · rw [List.mem_cons, ih, List.mem_cons, or_left_comm]
      · rw [List.mem_cons]

theorem Numbered.plant (numbered : tables.Numbered) {row : NodeRow}
    (planted : tables.plant row = .ok left) : left.Numbered := by
  have ascending {rows : List NodeRow} (sorted : rows.Pairwise fun a b => a.id < b.id)
      (unused : ∀ other ∈ rows, other.id ≠ row.id) :
      (Tables.planted row rows).Pairwise fun a b => a.id < b.id := by
    induction rows with
    | nil => exact List.pairwise_singleton _ _
    | cons first rest ih =>
        obtain ⟨below, sorted⟩ := List.pairwise_cons.mp sorted
        obtain ⟨other, unused⟩ := List.forall_mem_cons.mp unused
        rw [Tables.planted]
        split
        · rename_i before
          refine List.pairwise_cons.mpr ⟨fun later mem => ?_, ih sorted unused⟩
          rcases mem_planted.mp mem with rfl | mem
          · exact before
          · exact below later mem
        · rename_i after
          have first_after : row.id < first.id := (not_lt.mp after).lt_of_ne other.symm
          refine List.pairwise_cons.mpr
            ⟨List.forall_mem_cons.mpr ⟨first_after, fun later mem => ?_⟩,
            List.pairwise_cons.mpr ⟨below, sorted⟩⟩
          exact first_after.trans (below later mem)
  rw [Tables.plant] at planted
  split at planted
  · cases planted
  · rename_i free
    cases planted
    refine ascending numbered fun other mem same => free ?_
    rw [Bool.or_eq_true, List.any_eq_true]
    exact Or.inr ⟨other, mem, beq_iff_eq.mpr same⟩

theorem Numbered.append (numbered : tables.Numbered) {row : NodeRow}
    (number : row.id = tables.nextNumber) :
    Numbered { tables with nodes := tables.nodes ++ [row] } := by
  refine List.pairwise_append.mpr ⟨numbered, List.pairwise_singleton _ _,
    fun other mem last own => ?_⟩
  rw [List.mem_singleton.mp own, number]
  exact numbered.lt_nextNumber mem

theorem Numbered.map (numbered : tables.Numbered) {f : NodeRow → NodeRow}
    (same : ∀ row, (f row).id = row.id) :
      Numbered { tables with nodes := tables.nodes.map f } := by
  refine List.pairwise_map.mpr (numbered.imp fun {a b} before => ?_)
  rwa [same, same]

end Tables

namespace Database

variable {db : Database}

/-- The rows of the tables, and of those to return to, are numbered. -/
def Numbered (db : Database) : Prop := ∀ tables ∈ db.tables :: db.savepoints, tables.Numbered

theorem control_levels (request : Control) (db : Database) :
    (control request db).2.tables :: (control request db).2.savepoints ⊆ db.tables ::
      db.savepoints := by
  obtain ⟨tables, savepoints⟩ := db
  cases request with
  | begin => exact List.cons_subset.mpr ⟨List.mem_cons_self, List.Subset.refl _⟩
  | commit =>
      obtain _ | ⟨saved, savepoints⟩ := savepoints
      · exact List.Subset.refl _
      · exact List.cons_subset_cons _ (List.subset_cons_self _ _)
  | rollback =>
      obtain _ | ⟨saved, savepoints⟩ := savepoints
      · exact List.Subset.refl _
      · exact List.subset_cons_self _ _

theorem Numbered.control (numbered : db.Numbered) (request : Control) :
    (control request db).2.Numbered :=
  fun tables mem => numbered tables (control_levels request db mem)

theorem call_numbered (numbered : db.tables.Numbered) (q : Call) :
    (call q db).2.tables.Numbered := by
  have changed {α : Type} {result : Except StoreError (α × Tables)}
      (kept : ∀ value left, result = .ok (value, left) → left.Numbered) :
      (db.change result).2.tables.Numbered := by
    rcases result with _ | ⟨value, left⟩
    · exact numbered
    · exact kept value left rfl
  cases q with
  | insertNode node =>
      refine changed fun id left done => ?_
      rw [Tables.insertNode] at done
      split at done
      · cases done
      · split at done <;> cases done
        exact numbered.append rfl
  | insertEdge e =>
      refine changed fun isNew left done => ?_
      obtain ⟨source, _, done⟩ := DependencyGraph.bind_eq_ok.mp done
      obtain ⟨target, _, done⟩ := DependencyGraph.bind_eq_ok.mp done
      obtain ⟨_, _, done⟩ := DependencyGraph.bind_eq_ok.mp done
      dsimp only at done
      split at done <;> cases done <;> exact numbered
  | markNodes ids =>
      refine changed fun n left done => ?_
      rw [Tables.markNodes] at done
      split at done <;> cases done
      refine numbered.map fun row => ?_
      split <;> rfl
  | clearMarks => exact numbered.map fun _ => rfl
  | removeKind kind => exact List.Pairwise.filter _ numbered
  | reset => exact List.Pairwise.nil
  | _ => exact numbered

theorem Numbered.here (numbered : db.Numbered) : db.tables.Numbered := numbered _ List.mem_cons_self

theorem Numbered.change (numbered : db.Numbered) {tables : Tables} (changed : tables.Numbered) :
    Numbered { db with tables := tables } :=
  List.forall_mem_cons.mpr ⟨changed, (List.forall_mem_cons.mp numbered).2⟩

theorem Numbered.call (numbered : db.Numbered) (q : Call) : (call q db).2.Numbered := by
  refine List.forall_mem_cons.mpr ⟨call_numbered numbered.here q, ?_⟩
  rw [call_savepoints]
  exact (List.forall_mem_cons.mp numbered).2

end Database

namespace Tables

variable {tables : Tables} {ids : List NodeId} {id : NodeId} {row : NodeRow}

theorem Numbered.row?_eq_some (numbered : tables.Numbered) (mem : row ∈ tables.nodes)
    (number : row.id = id.toNat) : tables.row? id = some row := by
  have distinct : (tables.nodes.map NodeRow.id).Nodup :=
    List.pairwise_map.mpr (numbered.imp fun before => before.ne)
  cases found : tables.row? id with
  | none => exact absurd number (by simpa using List.find?_eq_none.mp found row mem)
  | some other =>
      have same : other.id = row.id :=
        (by simpa using List.find?_some found : other.id = id.toNat).trans
        number.symm
      rw [List.inj_on_of_nodup_map distinct (List.mem_of_find?_eq_some found) mem same]

theorem isListed_iff (number : row.id = id.toNat) : isListed ids row = true ↔ id ∈ ids := by
  rw [isListed, List.any_eq_true]
  constructor
  · rintro ⟨other, mem, same⟩
    have equal : (id.toNat : Int) = other.toNat := number.symm.trans (beq_iff_eq.mp same)
    exact NodeId.toNat_inj.mp (Int.ofNat_inj.mp equal) ▸ mem
  · exact fun mem => ⟨id, mem, beq_iff_eq.mpr number⟩

theorem marking_marked (ids : List NodeId) (row : NodeRow) :
    (marking ids row).marked = (row.marked || isListed ids row) := by
  rw [marking]
  cases isListed ids row <;> simp

def marked (tables : Tables) : Set NodeId :=
  {id | ∃ row, tables.row? id = some row ∧ row.marked = true}

theorem row?_marking (ids : List NodeId) (id : NodeId) :
    row? { tables with nodes := tables.nodes.map (marking ids) } id =
      (tables.row? id).map (marking ids) := by
  have same (row : NodeRow) : (marking ids row).id = row.id := by
    rw [marking]
    split <;> rfl
  rw [row?, List.find?_map]
  simp only [Function.comp_def, same]
  rfl

theorem marked_marking (existing : ∀ id ∈ ids, ∃ row, tables.row? id = some row) :
    marked { tables with nodes := tables.nodes.map (marking ids) } =
      tables.marked ∪ {id | id ∈ ids} := by
  ext id
  simp only [marked, row?_marking, Set.mem_union, Set.mem_ofPred_eq]
  cases found : tables.row? id with
  | none =>
      have unlisted : id ∉ ids := fun mem => by simpa [found] using existing id mem
      simp [unlisted]
  | some row =>
      have listed : isListed ids row = true ↔ id ∈ ids :=
        isListed_iff (by simpa using List.find?_some found)
      simp [marking_marked, listed]

theorem markNodes_ok {n : Nat} {left : Tables} (done : tables.markNodes ids = .ok (n, left)) :
    (∀ id ∈ ids, ∃ row, tables.row? id = some row) ∧
      n = (tables.nodes.countP fun row => !row.marked && isListed ids row) ∧
      left = { tables with nodes := tables.nodes.map (marking ids) } := by
  rw [markNodes] at done
  rcases missing : ids.find? (fun id => (tables.row? id).isNone) with _ | id
  · rw [missing] at done
    cases done
    refine ⟨fun id mem => ?_, List.countP_eq_length_filter.symm, rfl⟩
    exact Option.ne_none_iff_exists'.mp (by simpa using List.find?_eq_none.mp missing id mem)
  · rw [missing] at done
    cases done

theorem Numbered.countP_newly (numbered : tables.Numbered) (ids : List NodeId) :
    (tables.nodes.countP fun row => !row.marked && isListed ids row) =
      {id | id ∈ ids ∧ ∃ row, tables.row? id = some row ∧ row.marked = false}.ncard := by
  have number {row : NodeRow} (listed : isListed ids row = true) :
      ∃ id ∈ ids, row.id = id.toNat ∧ NodeId.ofNat row.id.toNat = id := by
    obtain ⟨id, mem, same⟩ := List.any_eq_true.mp listed
    refine ⟨id, mem, beq_iff_eq.mp same, ?_⟩
    rw [beq_iff_eq.mp same, Int.toNat_natCast, NodeId.ofNat_toNat]
  have newly {row : NodeRow} : (!row.marked && isListed ids row) = true ↔
      row.marked = false ∧ isListed ids row = true := by simp
  rw [List.countP_eq_length_filter, ← List.length_map fun row => NodeId.ofNat row.id.toNat]
  refine NodeId.length_eq_ncard ?_ fun id => ?_
  · refine List.pairwise_map.mpr ((List.Pairwise.filter _ numbered).imp_of_mem ?_)
    intro a b memA memB before same
    obtain ⟨x, _, numberX, equalX⟩ := number (newly.mp (List.mem_filter.mp memA).2).2
    obtain ⟨y, _, numberY, equalY⟩ := number (newly.mp (List.mem_filter.mp memB).2).2
    rw [equalX, equalY] at same
    rw [numberX, numberY, same] at before
    exact lt_irrefl _ before
  · rw [List.mem_map]
    constructor
    · rintro ⟨row, mem, rfl⟩
      obtain ⟨mem, new⟩ := List.mem_filter.mp mem
      obtain ⟨unmarked, listed⟩ := newly.mp new
      obtain ⟨id, among, same, equal⟩ := number listed
      rw [equal]
      exact ⟨among, row, numbered.row?_eq_some mem same, unmarked⟩
    · rintro ⟨among, row, found, unmarked⟩
      have same : row.id = id.toNat := by simpa using List.find?_some found
      refine ⟨row, List.mem_filter.mpr ⟨List.mem_of_find?_eq_some found, ?_⟩, ?_⟩
      · exact newly.mpr ⟨unmarked, (isListed_iff same).mpr among⟩
      · rw [same, Int.toNat_natCast, NodeId.ofNat_toNat]

end Tables

namespace Database

variable {db : Database} {ids : List NodeId} {n : Nat}

theorem marks_eq (db : Database) : store.marks db = db.tables.marked := by
  ext id
  change NodeRow.marked <$> db.tables.row id = .ok true ↔ ∃ row, _
  rw [DependencyGraph.map_eq_ok, Tables.row]
  cases db.tables.row? id <;> simp

theorem Numbered.markNodes_marks (numbered : db.Numbered)
    (done : (Database.call (.markNodes ids) db).1 = .ok n) :
    store.marks (Database.call (.markNodes ids) db).2 = store.marks db ∪ {id | id ∈ ids} ∧
      n = ({id | id ∈ ids} \ store.marks db).ncard := by
  rw [Database.call] at done ⊢
  rcases result : db.tables.markNodes ids with error | ⟨count, left⟩
  · rw [result] at done
    cases done
  · rw [result] at done
    obtain rfl := Except.ok.inj done
    obtain ⟨existing, rfl, rfl⟩ := Tables.markNodes_ok result
    constructor
    · exact (marks_eq _).trans ((Tables.marked_marking existing).trans (by rw [marks_eq]))
    · rw [numbered.here.countP_newly ids, marks_eq]
      congr 1
      ext id
      refine and_congr_right fun mem => ?_
      obtain ⟨row, found⟩ := existing id mem
      simp [Tables.marked, found]

end Database

namespace Memory

variable {memory : Memory} {ids : List NodeId} {n : Nat}

theorem marks_eq (valid : memory.graph.Valid) :
    store.marks memory = memory.graph.contents.marked := by
  ext id
  have answer := (faithful.call_of_determined (q := .isMarked id) (s := memory) valid rfl).1
  change (call (.isMarked id) memory).1 = _ at answer
  change (call (.isMarked id) memory).1 = .ok true ↔ _
  rw [answer, Contents.about]
  cases found : (view.holds memory).node? id with
  | none =>
      refine iff_of_false (fun same => by cases same) fun mem => ?_
      exact Contents.not_mem_live.mpr found (valid.contents.marked_live mem)
  | some node => simp [view]

theorem markNodes_marks (valid : memory.graph.Valid)
    (done : (call (.markNodes ids) memory).1 = .ok n) :
    store.marks (call (.markNodes ids) memory).2 = store.marks memory ∪ {id | id ∈ ids} ∧
      n = ({id | id ∈ ids} \ store.marks memory).ncard := by
  obtain ⟨answer, valid', -⟩ := markNodes_answers valid ids
  rw [marks_eq valid, marks_eq valid']
  rw [Contents.marking, done] at answer
  split at answer
  · cases answer
  · obtain ⟨count, holds⟩ := Prod.mk.inj answer
    rw [← holds, Except.ok.inj count]
    exact ⟨rfl, rfl⟩

end Memory

theorem Medium.control_failed (medium : Medium) {request : Control} {s : medium.State}
    {error : StoreError} (failed : (medium.store.control request s).1 = .error error) :
    (medium.store.control request s).2 = s := by
  cases medium with
  | memory =>
      obtain ⟨graph, _ | ⟨saved, snapshots⟩⟩ :=
        s <;> cases request <;> first | rfl | cases failed
  | database =>
      obtain ⟨tables, _ | ⟨saved, savepoints⟩⟩ :=
        s <;> cases request <;> first | rfl | cases failed

theorem Memory.traceless {memory : Memory} (valid : memory.graph.Valid) :
    store.Traceless memory where
  call failed := Medium.memory.call_failed failed
  control failed := Medium.memory.control_failed failed
  marks done := markNodes_marks valid done

theorem Database.Numbered.traceless {db : Database} (numbered : db.Numbered) :
    store.Traceless db where
  call failed := Medium.database.call_failed failed
  control failed := Medium.database.control_failed failed
  marks done := numbered.markNodes_marks done

namespace Connection

variable {db : Database}

theorem marks_ofDatabase (numbered : db.Numbered) :
    stepwise.marks (ofDatabase db) = Database.store.marks db := by
  ext id
  change (stepwise.call (.isMarked id) (ofDatabase db)).1 = .ok true ↔ _
  rw [stepwise_ofDatabase numbered.here]
  rfl

theorem traceless (numbered : db.Numbered) : stepwise.Traceless (ofDatabase db) where
  call {q error} failed := by
    rw [stepwise_ofDatabase numbered.here] at failed ⊢
    exact congrArg ofDatabase (numbered.traceless.call failed)
  control {request error} failed := by
    change (control request (ofDatabase db)).1 = _ at failed
    change (control request (ofDatabase db)).2 = _
    rw [control_ofDatabase] at failed ⊢
    exact congrArg ofDatabase (numbered.traceless.control failed)
  marks {ids n} done := by
    have after := marks_ofDatabase (numbered.call (.markNodes ids))
    rw [stepwise_ofDatabase numbered.here] at done ⊢
    rw [marks_ofDatabase numbered]
    exact ⟨after.trans (numbered.traceless.marks done).1, (numbered.traceless.marks done).2⟩

end Connection

namespace Backing

/-- The stores, the connection to a database statement by statement. -/
def stepwise : (backing : Backing) → Store backing.State
  | memory => Memory.store
  | database => Database.store
  | connection => Connection.stepwise

/-- Whether a call may be made. A memory in which every identifier is in use
takes no further node. -/
def Admits : (backing : Backing) → Call → backing.State → Prop
  | memory, q, (s : Memory) => q.inserts = true → s.graph.HasSpare
  | database, _, _ => True
  | connection, _, _ => True

/-- Other hands put a row into the table of nodes, with any number up to the greatest identifier. -/
def Plants : (backing : Backing) → backing.State → backing.State → Prop
  | memory, _, _ => False
  | database, (s : Database), (s' : Database) => ∃ (row : NodeRow) (tables : Tables),
      row.id < (NodeId.count : Int) ∧ s.tables.plant row = .ok tables ∧
        s' = { s with tables := tables }
  | connection, (s : Connection), (s' : Connection) => ∃ (row : NodeRow) (tables : Tables),
      row.id < (NodeId.count : Int) ∧ s.engine.tables.plant row = .ok tables ∧
        s' = { s with engine := { s.engine with tables := tables } }

/-- The states that calls, requests and other hands lead to from the first one, at any depth. -/
def Reachable (backing : Backing) (s : backing.State) : Prop :=
  backing.stepwise.Reachable backing.Admits backing.Plants backing.initial s

theorem memory_accounted {s : Memory} (reached : memory.Reachable s) : s.graph.Accounted :=
  (Store.Reachable.invariant Memory.initial_sound (fun q _ sound spare => sound.call q spare)
    (fun request _ sound => sound.control request) (fun _ _ _ => nofun) reached).graph

theorem initial_numbered : Database.Numbered {} := by
  rintro tables mem
  rw [List.mem_singleton.mp mem]
  exact List.Pairwise.nil

theorem database_numbered {s : Database} (reached : database.Reachable s) : s.Numbered := by
  refine Store.Reachable.invariant (I := Database.Numbered) initial_numbered
    (fun q _ numbered _ => numbered.call q) (fun request _ numbered => numbered.control request)
    (fun s s' numbered planted => ?_) reached
  obtain ⟨row, tables, _, planted, rfl⟩ := planted
  exact numbered.change (numbered.here.plant planted)

/-- Every state of a connection stands for a database. -/
theorem connection_numbered {s : Connection} (reached : connection.Reachable s) :
    ∃ db : Database, db.Numbered ∧ s = Connection.ofDatabase db := by
  refine Store.Reachable.invariant
    (I := fun s : Connection => ∃ db : Database, db.Numbered ∧ s = Connection.ofDatabase db)
    ⟨{}, initial_numbered, rfl⟩ ?_ ?_ ?_ reached
  · rintro q _ ⟨db, numbered, rfl⟩ _
    refine ⟨_, numbered.call q, ?_⟩
    exact congrArg Prod.snd (Connection.stepwise_ofDatabase numbered.here q)
  · rintro request _ ⟨db, numbered, rfl⟩
    exact ⟨_, numbered.control request, congrArg Prod.snd
      (Connection.control_ofDatabase request db)⟩
  · rintro _ _ ⟨db, numbered, rfl⟩ ⟨row, tables, _, planted, rfl⟩
    exact ⟨_, numbered.change (numbered.here.plant planted), rfl⟩

/-- In whatever state a store is, at any depth and with rows of any numbers, operations
that fail leave no trace. -/
theorem failures_leave_no_trace (backing : Backing) {s : backing.State}
    (reached : backing.Reachable s) : backing.stepwise.Traceless s := by
  cases backing with
  | memory => exact Memory.traceless (memory_accounted reached).toValid
  | database => exact (database_numbered reached).traceless
  | connection =>
      obtain ⟨db, numbered, rfl⟩ := connection_numbered reached
      exact Connection.traceless numbered

/-- Two levels deep, with a row of the greatest number: a new node finds no number, and a list of
nodes that has one node twice is marked or, with a missing node at its end, not marked. -/
theorem failures_leave_no_trace_of_overflow :
    let store := connection.stepwise
    let s := (store.control .begin (store.control .begin
      { engine := { tables := { nodes := [⟨4294967295, "binding", none, "x", false⟩] } } }).2).2
    let last := NodeId.ofNat 4294967295
    let insertion := store.call (.insertNode (.symbol "f")) s
    let refused := store.call (.markNodes [last, last, NodeId.ofNat 7]) s
    let accepted := store.call (.markNodes [last, last]) s
    connection.Reachable s ∧ insertion = (.error (.idOverflow 4294967296), s) ∧
      refused = (.error (.nodeNotFound (NodeId.ofNat 7)), s) ∧ accepted.1 = .ok 1 ∧
      store.marks accepted.2 = store.marks s ∪ {last} ∧ ({last} \ store.marks s).ncard = 1 := by
  intro store s last insertion refused accepted
  have reached : connection.Reachable s :=
    .control _ (.control _
      (.change .start ⟨⟨4294967295, "binding", none, "x", false⟩, _, by decide, rfl, rfl⟩))
  have traceless := failures_leave_no_trace connection reached
  have overflow : insertion.1 = .error (.idOverflow 4294967296) := by decide +kernel
  have missing : refused.1 = .error (.nodeNotFound (NodeId.ofNat 7)) := by decide +kernel
  have marked : accepted.1 = .ok 1 := by decide +kernel
  obtain ⟨marks, count⟩ := traceless.marks marked
  have listed : {id | id ∈ [last, last]} = ({last} : Set NodeId) := by
    ext id
    simp
  rw [listed] at marks count
  exact ⟨reached, Prod.ext overflow (traceless.call overflow),
    Prod.ext missing (traceless.call missing),
    marked, marks, count.symm⟩

end Backing

end BlastRadius
