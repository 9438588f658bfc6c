import BlastRadius.Proofs.Store.Faithful
import BlastRadius.Proofs.Store.Rows

/-!
The store in a database is faithful while its tables are valid. A new row takes the number after the
greatest one, so the greatest number in use bounds the identifiers.
-/

namespace BlastRadius

/-- The number of the next row after the rows of some records. -/
def Entries.nextNumber (entries : Entries) : Nat :=
  (entries.getLast?.map fun entry => entry.1.toNat + 1).getD 1

namespace Tables

variable {es es' : Entries} {ls ls' : List Edge}

theorem nextNumber_written : (written es ls).nextNumber = (es.nextNumber : Int) := by
  have last : (written es ls).nodes.getLast? = es.getLast?.map NodeRow.ofEntry := List.getLast?_map
  rw [nextNumber, last, Entries.nextNumber]
  cases es.getLast? with
  | none => rfl
  | some entry => simp [NodeRow.ofEntry]

theorem nextNumber_concat (entry : NodeId × NodeRecord) :
    Entries.nextNumber (es ++ [entry]) = entry.1.toNat + 1 := by
  simp [Entries.nextNumber]

theorem lt_nextNumber (ascending : es.Ascending) {entry : NodeId × NodeRecord}
    (mem : entry ∈ es) :
    entry.1.toNat < es.nextNumber := by
  obtain rfl | ⟨rest, last, rfl⟩ := List.eq_nil_or_concat' es
  · exact absurd mem List.not_mem_nil
  · rw [nextNumber_concat]
    rcases List.mem_append.mp mem with mem | mem
    · rw [Entries.Ascending, List.map_append, List.pairwise_append] at ascending
      have lt : entry.1 < last.1 :=
        ascending.2.2 entry.1 (List.mem_map_of_mem mem) last.1 (by simp)
      exact Nat.lt_succ_of_lt lt
    · rw [List.mem_singleton.mp mem]
      exact Nat.lt_succ_self _

theorem nextNumber_le (ascending : es.Ascending) (sub : es'.map Prod.fst ⊆ es.map Prod.fst) :
    es'.nextNumber ≤ es.nextNumber := by
  rw [Entries.nextNumber]
  cases last : es'.getLast? with
  | none =>
      rw [Option.map_none, Option.getD_none, Entries.nextNumber]
      cases es.getLast? <;> simp
  | some entry =>
      obtain ⟨other, mem, same⟩ := List.mem_map.mp
        (sub (List.mem_map_of_mem (List.mem_of_getLast? last)))
      rw [Option.map_some, Option.getD_some, ← same]
      exact lt_nextNumber ascending mem

theorem keyTaken_written (ascending : es.Ascending) (node : Node) :
    (written es ls).keyTaken (node.key?.map NodeKey.canonical) = true ↔
      ∃ key, node.key? = some key ∧ ((es.contents ls).keyed key).Nonempty := by
  cases hkey : node.key? with
  | none => simp [keyTaken]
  | some key =>
      have row (entry : NodeId × NodeRecord) := ofEntry_uniqueKey entry key
      simp only [keyTaken, written, Option.map_some, Option.isSome_some, Bool.true_and,
        List.any_map, List.any_eq_true, Function.comp_apply, row, Option.some.injEq,
        exists_eq_left']
      constructor
      · rintro ⟨entry, mem, held⟩
        exact ⟨entry.1, (mem_keyed_iff ascending).mpr ⟨entry.2, mem, held⟩⟩
      · rintro ⟨id, mem⟩
        obtain ⟨record, mem, held⟩ := (mem_keyed_iff ascending).mp mem
        exact ⟨(id, record), mem, held⟩

theorem insertNode_of_free {node : Node} (room : es.nextNumber < NodeId.count)
    (free : ¬ (written es ls).keyTaken (node.key?.map NodeKey.canonical) = true) :
    (written es ls).insertNode node = .ok (NodeId.ofNat es.nextNumber,
      written (es ++ [(NodeId.ofNat es.nextNumber, { node := node })]) ls) := by
  have number : (NodeId.ofNat es.nextNumber).toNat = es.nextNumber := NodeId.toNat_ofNat room
  have found : NodeId.ofInt? (es.nextNumber : Int) = some (NodeId.ofNat es.nextNumber) := by
    rw [NodeId.ofInt?, if_pos (by omega), Int.toNat_natCast]
  rw [insertNode, if_neg free, nextNumber_written, found]
  simp [written, NodeRow.ofEntry, number]

/-- A node whose key is not taken is written at the end, under a number that was not in use. -/
theorem insertNode_written (ascending : es.Ascending) (ordered : Edge.Ordered Relation.nameRank ls)
    (valid : (es.contents ls).Valid) {node : Node} (room : es.nextNumber < NodeId.count)
    (unkeyed : ∀ key, node.key? = some key → (es.contents ls).keyed key = ∅) :
    ∃ id es', (written es ls).insertNode node = .ok (id, written es' ls) ∧
      (es.contents ls).node? id = none ∧ (written es' ls).Valid ∧
      es'.contents ls = (es.contents ls).insert id node ∧ es'.nextNumber = es.nextNumber + 1 := by
  have number : (NodeId.ofNat es.nextNumber).toNat = es.nextNumber := NodeId.toNat_ofNat room
  have above (entry : NodeId × NodeRecord) (mem : entry ∈ es) :
      entry.1 < NodeId.ofNat es.nextNumber := by
    change entry.1.toNat < _
    rw [number]
    exact lt_nextNumber ascending mem
  have absent : es.lookup (NodeId.ofNat es.nextNumber) = none := by
    rw [Entries.lookup_isNone]
    intro mem
    obtain ⟨entry, mem, same⟩ := List.mem_map.mp mem
    exact lt_irrefl _ (same ▸ above entry mem)
  have fresh : (es.contents ls).node? (NodeId.ofNat es.nextNumber) = none :=
    Option.map_eq_none_iff.mpr absent
  have place := DependencyGraph.placed_eq_append { node := node } above
  have holds : Entries.contents (es ++ [(NodeId.ofNat es.nextNumber, { node := node })]) ls =
      (es.contents ls).insert (NodeId.ofNat es.nextNumber) node := by
    rw [← place]
    exact Entries.contents_placed absent
  refine ⟨NodeId.ofNat es.nextNumber, es ++ [(NodeId.ofNat es.nextNumber, { node := node })], ?_,
    fresh, written_valid ?_ ordered ?_, holds, ?_⟩
  · have free : ¬ (written es ls).keyTaken (node.key?.map NodeKey.canonical) = true := by
      rw [keyTaken_written ascending]
      rintro ⟨key, hkey, held⟩
      exact held.ne_empty (unkeyed key hkey)
    exact insertNode_of_free room free
  · rw [← place]
    exact Entries.placed_ascending ascending _ absent
  · rw [holds]
    exact valid.insert fresh unkeyed
  · rw [nextNumber_concat, number]

theorem edgeBefore_iff (a b : Edge) : edgeBefore (EdgeRow.ofEdge a) (EdgeRow.ofEdge b) = true ↔
    a.place Relation.nameRank < b.place Relation.nameRank := by
  rw [Edge.place_lt]
  change (decide (a.source < b.source) || (a.source == b.source &&
    (decide (a.relation.name < b.relation.name) ||
      (a.relation.name == b.relation.name && decide (a.target < b.target))))) = true ↔ _
  simp only [Relation.name_lt, Relation.name_eq, Bool.or_eq_true, Bool.and_eq_true,
    decide_eq_true_eq, beq_iff_eq, Relation.nameRank_injective.eq_iff]

theorem linked_written (e : Edge) : linked (EdgeRow.ofEdge e) (ls.map EdgeRow.ofEdge) =
    (ls.orderedInsert (fun a b => a.place Relation.nameRank ≤ b.place Relation.nameRank) e).map
      EdgeRow.ofEdge := by
  induction ls with
  | nil => rfl
  | cons f rest ih =>
      rw [List.map_cons, linked, List.orderedInsert_cons, ih]
      by_cases h : edgeBefore (EdgeRow.ofEdge f) (EdgeRow.ofEdge e) = true
      · rw [if_pos h, if_neg (not_le.mpr ((edgeBefore_iff f e).mp h)), List.map_cons]
      · rw [if_neg h, if_pos (not_lt.mp fun lt => h ((edgeBefore_iff f e).mpr lt)), List.map_cons,
          List.map_cons]

theorem insertEdge_between {e : Edge} {source target : Node}
    (hs : (es.contents ls).node? e.source = some source)
    (ht : (es.contents ls).node? e.target = some target) :
    (written es ls).insertEdge e =
      (e.relation.check source.kind target.kind).mapError StoreError.ofGraph >>= fun _ =>
        if (ls.map EdgeRow.ofEdge).contains (EdgeRow.ofEdge e) then .ok (false, written es ls)
        else .ok (true, { written es ls with
          edges := linked (EdgeRow.ofEdge e) (ls.map EdgeRow.ofEdge) }) := by
  rw [insertEdge, kindOf_written, kindOf_written, Contents.about, Contents.about, hs, ht]
  rfl

theorem insertEdge_permitted (ascending : es.Ascending)
    (ordered : Edge.Ordered Relation.nameRank ls) (valid : (es.contents ls).Valid) {e : Edge}
    {source target : Node} (hs : (es.contents ls).node? e.source = some source)
    (ht : (es.contents ls).node? e.target = some target)
    (permitted : e.relation.permits source.kind target.kind) :
    ∃ isNew ls', (written es ls).insertEdge e = .ok (isNew, written es ls') ∧
      (written es ls').Valid ∧ (es.contents ls).linked e = (.ok isNew, es.contents ls') := by
  have contains : (ls.map EdgeRow.ofEdge).contains (EdgeRow.ofEdge e) = true ↔ e ∈ ls :=
    List.contains_iff_mem.trans (List.mem_map_of_injective EdgeRow.ofEdge_injective)
  have found : (written es ls).insertEdge e =
      if (ls.map EdgeRow.ofEdge).contains (EdgeRow.ofEdge e) then .ok (false, written es ls)
      else .ok (true, { written es ls with
        edges := linked (EdgeRow.ofEdge e) (ls.map EdgeRow.ofEdge) }) := by
    rw [insertEdge_between hs ht, Relation.check, if_pos permitted]
    rfl
  rw [found, Contents.linked_of_permits hs ht permitted]
  by_cases mem : e ∈ ls
  · have known : (es.contents ls).lacks e = false := by
      rw [Bool.eq_false_iff, Ne, Contents.lacks_eq_true, not_not]
      exact mem
    rw [if_pos (contains.mpr mem), known, Contents.link_of_mem mem]
    exact ⟨false, ls, rfl, written_valid ascending ordered valid, rfl⟩
  · have holds : es.contents (ls.orderedInsert
        (fun a b => a.place Relation.nameRank ≤ b.place Relation.nameRank) e) =
          (es.contents ls).link e :=
      Contents.ext rfl (Set.ext fun f => List.mem_orderedInsert _) rfl
    have ordered' := ordered.orderedInsert Relation.nameRank_injective mem
    rw [if_neg fun h => mem (contains.mp h), Contents.lacks_eq_true.mpr mem, ← holds]
    refine ⟨true, _, ?_, written_valid ascending ordered' ?_, rfl⟩
    · rw [linked_written e]
      rfl
    · rw [holds]
      exact valid.link hs ht permitted

theorem insertEdge_written (ascending : es.Ascending) (ordered : Edge.Ordered Relation.nameRank ls)
    (valid : (es.contents ls).Valid) (e : Edge) :
    (∃ error, (written es ls).insertEdge e = .error error ∧
      (es.contents ls).linked e = (.error error, es.contents ls)) ∨
    ∃ isNew ls', (written es ls).insertEdge e = .ok (isNew, written es ls') ∧
      (written es ls').Valid ∧ (es.contents ls).linked e = (.ok isNew, es.contents ls') := by
  rcases hs : (es.contents ls).node? e.source with _ | source
  · refine Or.inl ⟨.nodeNotFound e.source, ?_, ?_⟩
    · rw [insertEdge, kindOf_written, Contents.about, hs]
      rfl
    · rw [Contents.linked, hs]
  rcases ht : (es.contents ls).node? e.target with _ | target
  · refine Or.inl ⟨.nodeNotFound e.target, ?_, ?_⟩
    · rw [insertEdge, kindOf_written, kindOf_written, Contents.about, Contents.about, hs, ht]
      rfl
    · rw [Contents.linked, hs, ht]
  by_cases permitted : e.relation.permits source.kind target.kind
  · exact Or.inr (insertEdge_permitted ascending ordered valid hs ht permitted)
  · refine Or.inl ⟨.rule (.invalidRelation e.relation source.kind target.kind), ?_, ?_⟩
    · rw [insertEdge_between hs ht, Relation.check, if_neg permitted]
      rfl
    · rw [Contents.linked, hs, ht]
      exact if_neg permitted

theorem isListed_ofEntry (ids : List NodeId) (entry : NodeId × NodeRecord) :
    isListed ids (NodeRow.ofEntry entry) = ids.contains entry.1 := by
  rw [isListed, Bool.eq_iff_iff, List.any_eq_true, List.contains_iff_mem]
  simp only [ofEntry_id_beq, beq_iff_eq]
  constructor
  · rintro ⟨id, mem, same⟩
    exact same ▸ mem
  · exact fun mem => ⟨entry.1, mem, rfl⟩

theorem markNodes_written (ascending : es.Ascending) (ordered : Edge.Ordered Relation.nameRank ls)
    (valid : (es.contents ls).Valid) (ids : List NodeId) :
    (∃ error, (written es ls).markNodes ids = .error error ∧
      (es.contents ls).marking ids = (.error error, es.contents ls)) ∨
    ∃ n, (written es ls).markNodes ids = .ok (n, written (es.map (Entries.markListed ids)) ls) ∧
      (written (es.map (Entries.markListed ids)) ls).Valid ∧ (es.contents ls).marking ids =
        (.ok n, Entries.contents (es.map (Entries.markListed ids)) ls) := by
  have agree : ids.find? (fun id => ((written es ls).row? id).isNone) =
      ids.find? fun id => ((es.contents ls).node? id).isNone := by
    congr 1
    funext id
    rw [row?_written, Option.isNone_map, Entries.contents_node?, Option.isNone_map]
  rw [markNodes, agree]
  rcases found : ids.find? fun id => ((es.contents ls).node? id).isNone with _ | missing
  · have existing (id : NodeId) (mem : id ∈ ids) : id ∈ (es.contents ls).live := by
      have present := List.find?_eq_none.mp found id mem
      exact not_not.mp fun dead =>
        present (Option.isNone_iff_eq_none.mpr (Contents.not_mem_live.mp dead))
    have holds := @Entries.contents_mark es ls ids existing
    refine Or.inr ⟨({id | id ∈ ids} \ (es.contents ls).marked).ncard, ?_, written_valid
      (Entries.map_ascending ascending (Entries.markListed_fst ids)) ordered ?_, ?_⟩
    · rw [← Entries.length_newly ascending existing]
      simp only [written, List.filter_map, List.length_map, List.map_map, Function.comp_def,
        isListed_ofEntry]
      refine congrArg (fun rows => Except.ok (_, Tables.mk rows _))
        (List.map_congr_left fun entry _ => ?_)
      rw [Entries.markListed]
      split <;> rfl
    · rw [holds]
      exact valid.mark existing
    · rw [Contents.marking_of_live existing, holds]
  · exact Or.inl ⟨_, rfl, by rw [Contents.marking, found]⟩

theorem clearMarks_written (ascending : es.Ascending) : (written es ls).clearMarks =
    ((es.contents ls).marked.ncard, written (es.map Entries.unmark) ls) := by
  rw [clearMarks, ← Entries.length_marked ascending]
  simp only [written, List.filter_map, List.length_map, List.map_map]
  rfl

theorem clearMarks_valid (ascending : es.Ascending) (ordered : Edge.Ordered Relation.nameRank ls)
    (valid : (es.contents ls).Valid) : (written (es.map Entries.unmark) ls).Valid := by
  refine written_valid (Entries.map_ascending ascending fun _ => rfl) ordered ?_
  rw [Entries.contents_unmarked]
  exact valid.unmarked

theorem removeKind_written (ascending : es.Ascending) (kind : NodeKind) :
    (written es ls).removeKind kind = (((es.contents ls).ofKind kind).ncard,
      written (es.filter fun entry => !(entry.2.node.kind == kind))
        (ls.filter fun e =>
          !((es.filter fun entry => entry.2.node.kind == kind).map Prod.fst).contains e.source &&
          !((es.filter fun entry => entry.2.node.kind == kind).map Prod.fst).contains
            e.target)) := by
  have sameKind (entry : NodeId × NodeRecord) :
      ((NodeRow.ofEntry entry).kind == kind.name) = (entry.2.node.kind == kind) :=
    NodeKind.name_beq entry.2.node.kind kind
  have count : (es.filter fun entry => entry.2.node.kind == kind).length =
      ((es.contents ls).ofKind kind).ncard := by
    rw [Entries.length_filter ascending]
    congr 1
    ext id
    simp [Entries.mem_contents_ofKind]
  have touches (id : NodeId) :
      ((es.filter fun entry => entry.2.node.kind == kind).map NodeRow.ofEntry).any
        (fun row => row.id == (id.toNat : Int)) =
          ((es.filter fun entry => entry.2.node.kind == kind).map Prod.fst).contains id := by
    rw [Bool.eq_iff_iff, List.any_map, List.any_eq_true, List.contains_iff_mem, List.mem_map]
    simp only [Function.comp_apply, ofEntry_id_beq, beq_iff_eq]
  rw [removeKind, ← count]
  simp only [written, List.filter_map, List.length_map, Function.comp_def, sameKind, touches,
    EdgeRow.ofEdge]

theorem removeKind_valid (ascending : es.Ascending) (ordered : Edge.Ordered Relation.nameRank ls)
    (valid : (es.contents ls).Valid) (kind : NodeKind) :
    (written (es.filter fun entry => !(entry.2.node.kind == kind))
      (ls.filter fun e =>
        !((es.filter fun entry => entry.2.node.kind == kind).map Prod.fst).contains e.source &&
        !((es.filter fun entry => entry.2.node.kind == kind).map Prod.fst).contains
          e.target)).Valid := by
  refine written_valid (Entries.filter_ascending ascending _)
    (ordered.sublist List.filter_sublist) ?_
  rw [Entries.contents_without ascending]
  exact valid.without kind

end Tables

namespace Database

/-- The states in which the levels with the given tables to return to were begun. -/
def begun : List Tables → List Database
  | [] => []
  | tables :: rest => ⟨tables, rest⟩ :: begun rest

def view : View Database where
  opened db := begun db.savepoints
  holds db := db.tables.contents
  sound db := db.tables.Valid
  level db := db.tables.entries.nextNumber

theorem targets_of_links {db : Database} {ls : List Edge} (links : db.tables.links = ls)
    (id : NodeId)
    (relation : Relation) : (view.holds db).targets id relation =
      {t | ⟨id, relation, t⟩ ∈ ls} := by
  subst links
  rfl

theorem call_savepoints (q : Call) (db : Database) : (call q db).2.savepoints = db.savepoints := by
  have changed {α : Type} (result : Except StoreError (α × Tables)) :
      (db.change result).2.savepoints = db.savepoints := by
    rcases result with _ | ⟨_, _⟩ <;> rfl
  cases q <;> first | rfl | exact changed _

theorem transactional : store.Transactional view.opened where
  call_opened q db := congrArg begun (call_savepoints q db)
  begin_ok h := by
    cases h
    rfl
  begin_error h := by cases h
  commit_ok := by
    rintro ⟨tables, _ | ⟨saved, savepoints⟩⟩ b s' rest opened h
    · cases opened
    · cases opened
      cases h
      rfl
  commit_error := by
    rintro ⟨tables, _ | ⟨saved, savepoints⟩⟩ b s' rest error opened h
    · cases opened
    · cases h
  rollback := by
    rintro ⟨tables, _ | ⟨saved, savepoints⟩⟩ b rest opened
    · cases opened
    · cases opened
      rfl

variable {db : Database} {c : Contents} {α : Type}

theorem ask_answers {answer expected : Except StoreError α} (holds : db.tables.contents = c)
    (valid : db.tables.Valid) (n : Nat) (h : answer = expected) :
    some (expected, c) = some ((db.ask answer).1, (db.ask answer).2.tables.contents) ∧
      (db.ask answer).2.tables.Valid ∧
      (db.ask answer).2.tables.entries.nextNumber ≤ db.tables.entries.nextNumber + n := by
  subst h holds
  exact ⟨rfl, valid, Nat.le_add_right _ _⟩

theorem refused_answers {result : Except StoreError (α × Tables)} {expected : Outcome Contents α}
    (holds : db.tables.contents = c) (valid : db.tables.Valid) (n : Nat)
    (h : ∃ error, result = .error error ∧ expected = (.error error, c)) :
    some expected = some ((db.change result).1, (db.change result).2.tables.contents) ∧
      (db.change result).2.tables.Valid ∧
      (db.change result).2.tables.entries.nextNumber ≤ db.tables.entries.nextNumber + n := by
  obtain ⟨error, rfl, rfl⟩ := h
  subst holds
  exact ⟨rfl, valid, Nat.le_add_right _ _⟩

theorem changed_answers {value : α} {es es' : Entries} {ls' : List Edge} {savepoints : List Tables}
    {ls : List Edge} {result : Except StoreError (α × Tables)} {expected : Outcome Contents α}
    (ascending : es.Ascending) (n : Nat)
    (h : result = .ok (value, Tables.written es' ls')) (valid : (Tables.written es' ls').Valid)
    (sub : es'.map Prod.fst ⊆ es.map Prod.fst)
    (answer : expected = (.ok value, es'.contents ls')) :
    some expected = some ((change ⟨Tables.written es ls, savepoints⟩ result).1,
        (change ⟨Tables.written es ls, savepoints⟩ result).2.tables.contents) ∧
      (change ⟨Tables.written es ls, savepoints⟩ result).2.tables.Valid ∧
      (change ⟨Tables.written es ls, savepoints⟩ result).2.tables.entries.nextNumber ≤
        (Tables.written es ls).entries.nextNumber + n := by
  subst h answer
  have holds : (Tables.written es' ls').contents = es'.contents ls' := Tables.contents_written
  refine ⟨by rw [← holds]; rfl, valid, ?_⟩
  change (Tables.written es' ls').entries.nextNumber ≤ _
  rw [Tables.entries_written, Tables.entries_written]
  exact Nat.le_add_right_of_le (Tables.nextNumber_le ascending sub)

theorem insertNode_taken {es : Entries} {ls : List Edge} (savepoints : List Tables)
    (ascending : es.Ascending) {node : Node} {key : NodeKey} (own : node.key? = some key)
    (held : ((es.contents ls).keyed key).Nonempty) :
    call (.insertNode node) ⟨Tables.written es ls, savepoints⟩ =
      (.error (.uniqueViolation key.canonical), ⟨Tables.written es ls, savepoints⟩) := by
  have occupied := (Tables.keyTaken_written ascending node).mpr ⟨key, own, held⟩
  rw [call, Tables.insertNode, if_pos occupied, own]
  rfl

theorem insertNode_answers {es : Entries} {ls : List Edge} {savepoints : List Tables}
    (ascending : es.Ascending) (ordered : Edge.Ordered Relation.nameRank ls)
    (valid : (es.contents ls).Valid) (node : Node) (room : es.nextNumber < NodeId.count) :
    (es.contents ls).Step (.insertNode node)
        (call (.insertNode node) ⟨Tables.written es ls, savepoints⟩).1
        (call (.insertNode node) ⟨Tables.written es ls, savepoints⟩).2.tables.contents ∧
      (call (.insertNode node) ⟨Tables.written es ls, savepoints⟩).2.tables.Valid ∧
      (call (.insertNode node) ⟨Tables.written es ls,
        savepoints⟩).2.tables.entries.nextNumber ≤
        es.nextNumber + if (call (.insertNode node) ⟨Tables.written es ls, savepoints⟩).1.isOk
          then 1 else 0 := by
  by_cases taken : ∃ key, node.key? = some key ∧ ((es.contents ls).keyed key).Nonempty
  · obtain ⟨key, own, held⟩ := taken
    rw [insertNode_taken savepoints ascending own held, Tables.contents_written,
      Tables.entries_written]
    exact ⟨Or.inl ⟨key, own, held, rfl, rfl⟩,
      Tables.written_valid ascending ordered valid, le_rfl⟩
  · have unkeyed (key : NodeKey) (hkey : node.key? = some key) :
        (es.contents ls).keyed key = ∅ :=
      Set.not_nonempty_iff_eq_empty.mp fun held => taken ⟨key, hkey, held⟩
    obtain ⟨id, es', written, fresh, valid', holds, number⟩ :=
      Tables.insertNode_written ascending ordered valid room unkeyed
    have done : call (.insertNode node) ⟨Tables.written es ls, savepoints⟩ =
        (.ok id, ⟨Tables.written es' ls, savepoints⟩) := by
      rw [call, written]
      rfl
    rw [done, Tables.contents_written, Tables.entries_written, holds, number]
    exact ⟨Or.inr ⟨unkeyed, id, fresh, rfl, rfl⟩, valid', le_rfl⟩

theorem faithful : store.Faithful view where
  toTransactional := transactional
  once body s := rfl
  begins {db} sound := ⟨_, rfl, rfl, sound, rfl⟩
  commits := by
    rintro ⟨tables, _ | ⟨saved, savepoints⟩⟩ b rest sound opened
    · cases opened
    · exact ⟨_, rfl, rfl, sound, rfl⟩
  answers q := by
    rintro ⟨tables, savepoints⟩ sound room
    obtain ⟨es, ls, rfl, ascending, ordered, valid⟩ := Tables.Valid.exists_written sound
    have holds : view.holds ⟨Tables.written es ls, savepoints⟩ = es.contents ls :=
      Tables.contents_written
    have level : view.level ⟨Tables.written es ls, savepoints⟩ = es.nextNumber :=
      congrArg Entries.nextNumber Tables.entries_written
    rw [holds]
    cases q with
    | insertNode node =>
        rw [level] at room ⊢
        simp only [Call.inserts, true_and]
        exact insertNode_answers ascending ordered valid node (room rfl)
    | getNode id => exact ask_answers holds sound _ (Tables.getNode_written id)
    | nodeKind id => exact ask_answers holds sound _ (Tables.kindOf_written id)
    | findNode key => exact ask_answers holds sound _ (Tables.findNode_written ascending valid key)
    | nodesOfKind kind =>
        exact ask_answers holds sound _ (Tables.nodesOfKind_written ascending kind)
    | insertEdge e =>
        rcases Tables.insertEdge_written ascending ordered valid e with refused |
          ⟨isNew, ls', added, valid', answer⟩
        · exact refused_answers holds sound _ refused
        · exact changed_answers ascending _ added valid' (fun _ mem => mem) answer
    | targets id relation =>
        exact ask_answers holds sound _ (Tables.targets_written ordered id relation)
    | sources id relation =>
        exact ask_answers holds sound _ (Tables.sources_written ordered id relation)
    | isMarked id => exact ask_answers holds sound _ (Tables.isMarked_written id)
    | markedNodes kind =>
        exact ask_answers holds sound _ (Tables.markedNodes_written ascending kind)
    | markNodes ids =>
        rcases Tables.markNodes_written ascending ordered valid ids with refused |
          ⟨n, marked, valid', answer⟩
        · exact refused_answers holds sound _ refused
        · refine changed_answers ascending _ marked valid' ?_ answer
          simp [Function.comp_def, Entries.markListed_fst]
    | clearMarks =>
        refine changed_answers ascending _
          (congrArg Except.ok (Tables.clearMarks_written ascending))
          (Tables.clearMarks_valid ascending ordered valid) ?_ ?_
        · simp [Function.comp_def, Entries.unmark]
        · rw [Entries.contents_unmarked]
    | loadGraph =>
        obtain ⟨g, loaded, validG, held⟩ := Tables.graph_written ascending valid
        exact ⟨⟨⟨g, loaded, validG, held⟩, holds⟩, sound, Nat.le_add_right _ _⟩
    | removeKind kind =>
        refine changed_answers ascending _
          (congrArg Except.ok (Tables.removeKind_written ascending kind))
          (Tables.removeKind_valid ascending ordered valid kind) ?_ ?_
        · exact (List.filter_sublist.map Prod.fst).subset
        · rw [Entries.contents_without ascending]
    | reset =>
        have empty : Entries.contents [] [] = Contents.empty := DependencyGraph.contents_empty
        have valid' : (Tables.written [] []).Valid := Tables.empty_valid
        refine changed_answers ascending _ rfl valid' (by simp) ?_
        · rw [empty]

end Database

end BlastRadius
