import BlastRadius.Proofs.Impact.Histories
import BlastRadius.Proofs.Store.Reachable
import BlastRadius.Proofs.Store.Scripted

/-!
A history that uses up the identifiers of the database while it never has more than two nodes. The
database numbers a new node one above its greatest, so that the numbers of two nodes rise when each
is removed and made again in turn. A graph in memory uses the identifiers that became free.
-/

namespace BlastRadius

/-- Removes a component and makes it again, and then a symbol. -/
def Operation.renewal : List Operation :=
  [.resetKinds [.component], .upsertComponent ⟨"web", "1.0"⟩, .resetKinds [.symbol],
    .upsertSymbol "parse"]

/-- Makes a component and a symbol and renews them so many times. The symbol is made twice at the
start, for it to get odd numbers: the greatest identifier is odd. -/
def Operation.climb : Nat → List Operation
  | 0 => [.upsertSymbol "parse", .upsertComponent ⟨"web", "1.0"⟩, .resetKinds [.symbol],
      .upsertSymbol "parse"]
  | n + 1 => climb n ++ renewal

/-- So many renewals give the symbol the greatest identifier there is. -/
def Operation.exhausting : List Operation := climb (2 ^ 31 - 2)

theorem Entries.ncard_live_le (es : Entries) (ls : List Edge) :
    (es.contents ls).live.ncard ≤ es.length := by
  have sub : (es.contents ls).live ⊆ {id | id ∈ es.map Prod.fst} := fun id live => by
    by_contra absent
    rw [Entries.mem_contents_live, Entries.lookup_isNone.mpr absent] at live
    cases live
  refine (Set.ncard_le_ncard sub (Set.toFinite _)).trans ?_
  rw [← List.coe_toFinset, Set.ncard_coe_finset, ← List.length_map Prod.fst]
  exact List.toFinset_card_le _

namespace Database

/-- The database of these records, without edges. -/
def holding (es : Entries) : Database := ⟨Tables.written es [], []⟩

def componentRow (n : Nat) : NodeId × NodeRecord :=
  (.ofNat n, { node := .component ⟨"web", "1.0"⟩ })

def symbolRow (n : Nat) : NodeId × NodeRecord := (.ofNat n, { node := .symbol "parse" })

theorem node_of_rows {m n : Nat} {id : NodeId} {node : Node}
    (own : (Entries.contents [componentRow m, symbolRow n] []).node? id = some node) :
    node = .component ⟨"web", "1.0"⟩ ∨ node = .symbol "parse" := by
  rw [Entries.contents_node?, Entries.lookup_cons, Entries.lookup_cons] at own
  split at own
  · exact Or.inl (Option.some.inj own).symm
  · split at own
    · exact Or.inr (Option.some.inj own).symm
    · cases own

theorem run_mergedId {es : Entries} {node : Node} {key : NodeKey} (keyed : node.key? = some key)
    (absent : (Tables.written es []).findNode key = .ok none)
    (free : ¬ (Tables.written es []).keyTaken (node.key?.map NodeKey.canonical) = true)
    (room : es.nextNumber < NodeId.count) :
    (Inventory.mergedId node).run.run store (holding es) = (.ok (NodeId.ofNat es.nextNumber),
      holding (es ++ [(NodeId.ofNat es.nextNumber, { node := node })])) := by
  have looked : store.call (.findNode key) (holding es) = (.ok none, holding es) :=
    congrArg (·, _) absent
  have inserted : store.call (.insertNode node) (holding es) =
      (.ok (NodeId.ofNat es.nextNumber), _) :=
    congrArg (change (holding es)) (Tables.insertNode_of_free room free)
  have merged : (StoreProgram.mergeNode node).run.run store (holding es) =
      (.ok (NodeId.ofNat es.nextNumber, true),
        holding (es ++ [(NodeId.ofNat es.nextNumber, { node := node })])) := by
    rw [StoreProgram.mergeNode, keyed, Program.run_exceptT_bind]
    simp only [StoreProgram.call, ExceptT.run_mk, Program.run, looked, andThen]
    change Program.run store (Program.call _ _) _ = _
    rw [Program.run, inserted]
    rfl
  rw [Inventory.mergedId, Program.run_exceptT_bind, merged]
  rfl

theorem nextNumber_singleton {n : Nat} (small : n < NodeId.count) (record : NodeRecord) :
    Entries.nextNumber [(.ofNat n, record)] = n + 1 := by
  simp [Entries.nextNumber, NodeId.toNat_ofNat small]

theorem run_upsert {n : Nat} {record : NodeRecord} {node : Node} {key : NodeKey}
    (keyed : node.key? = some key)
    (absent : (Tables.written [(.ofNat n, record)] []).findNode key = .ok none)
    (free : ¬ (Tables.written [(.ofNat n, record)] []).keyTaken
      (node.key?.map NodeKey.canonical) = true) (room : n + 1 < NodeId.count) :
    ((Answer.node <$> ImpactProgram.ofStore (Inventory.mergedId node)).run.run store
      (holding [(.ofNat n, record)])).2 =
        holding [(.ofNat n, record), (.ofNat (n + 1), { node := node })] := by
  have number := nextNumber_singleton (Nat.lt_of_succ_lt room) record
  rw [Program.run_map, ImpactProgram.ofStore, ExceptT.run_mk, Program.run_mapError,
    run_mergedId keyed absent free (number ▸ room), number]
  rfl

theorem upsertComponent_holding {n : Nat} (room : n + 1 < NodeId.count) :
    ((Operation.upsertComponent ⟨"web", "1.0"⟩).on store (holding [symbolRow n])).2 =
      holding [symbolRow n, componentRow (n + 1)] :=
  run_upsert rfl rfl (by rintro ⟨⟩) room

theorem upsertSymbol_holding {n : Nat} (room : n + 1 < NodeId.count) :
    ((Operation.upsertSymbol "parse").on store (holding [componentRow n])).2 =
      holding [componentRow n, symbolRow (n + 1)] :=
  run_upsert rfl rfl (by rintro ⟨⟩) room

theorem resetComponents_holding (n : Nat) :
    ((Operation.resetKinds [.component]).on store (holding [componentRow n, symbolRow (n + 1)])).2 =
      holding [symbolRow (n + 1)] := rfl

theorem resetSymbols_holding (n : Nat) :
    ((Operation.resetKinds [.symbol]).on store (holding [symbolRow n, componentRow (n + 1)])).2 =
      holding [componentRow (n + 1)] := rfl

theorem length_renewal {n : Nat} (room : n + 3 < NodeId.count) :
    ∀ before ∈ Operation.renewal.inits,
    (before.foldl (fun s operation => (operation.on store s).2)
      (holding [componentRow n, symbolRow (n + 1)])).tables.nodes.length ≤ 2 := by
  have made := upsertComponent_holding (n := n + 1) (by omega)
  have made' := upsertSymbol_holding (n := n + 2) (by omega)
  intro before mem
  simp only [Operation.renewal, List.inits, List.map, List.mem_cons, List.not_mem_nil, or_false]
    at mem
  rcases mem with rfl | rfl | rfl | rfl | rfl
  · exact le_rfl
  · rw [List.foldl_cons, resetComponents_holding]
    exact Nat.le_succ 1
  · rw [List.foldl_cons, List.foldl_cons, resetComponents_holding, made]
    exact le_rfl
  · rw [List.foldl_cons, List.foldl_cons, List.foldl_cons, resetComponents_holding, made,
      resetSymbols_holding]
    exact Nat.le_succ 1
  · rw [List.foldl_cons, List.foldl_cons, List.foldl_cons, List.foldl_cons,
      resetComponents_holding, made, resetSymbols_holding, made']
    exact le_rfl

/-- A renewal raises both numbers by two. -/
theorem renewal_holding {n : Nat} (room : n + 3 < NodeId.count) :
    Operation.renewal.foldl (fun s operation => (operation.on store s).2)
      (holding [componentRow n, symbolRow (n + 1)]) =
        holding [componentRow (n + 2), symbolRow (n + 3)] := by
  have made := upsertComponent_holding (n := n + 1) (by omega)
  have made' := upsertSymbol_holding (n := n + 2) (by omega)
  rw [Operation.renewal, List.foldl_cons, List.foldl_cons, List.foldl_cons, List.foldl_cons,
    List.foldl_nil, resetComponents_holding, made, resetSymbols_holding, made']

end Database

namespace Medium

open Operation (climb renewal)
open Database (holding componentRow symbolRow)

variable {n : Nat}

theorem reached_concat (operations others : List Operation) (medium : Medium) :
    medium.reached (operations ++ others) =
      others.foldl (fun s operation => (operation.on medium.store s).2)
        (medium.reached operations) :=
  List.foldl_append

theorem reached_climb (room : 2 * n + 3 < NodeId.count) :
    database.reached (climb n) = holding [componentRow (2 * n + 2), symbolRow (2 * n + 3)] := by
  induction n with
  | zero => decide +kernel
  | succ n ih =>
      rw [climb, reached_concat, ih (by omega), Nat.mul_succ]
      exact Database.renewal_holding room

theorem reached_climb_memory (n : Nat) : memory.reached (climb n) = memory.reached (climb 0) := by
  induction n with
  | zero => rfl
  | succ n ih =>
      rw [show climb (n + 1) = climb n ++ renewal from rfl, reached_concat, ih]
      decide +kernel

def rows : (medium : Medium) → medium.State → Nat
  | memory, (s : Memory) => s.graph.nodes.length
  | database, (s : Database) => s.tables.nodes.length

theorem size_le_rows (medium : Medium) (s : medium.State) : medium.size s ≤ medium.rows s := by
  cases medium with
  | memory => exact Entries.ncard_live_le _ _
  | database => exact (Entries.ncard_live_le _ _).trans (List.length_filterMap_le _ _)

theorem rows_renewal (medium : Medium) (room : 2 * n + 5 < NodeId.count) :
    ∀ before ∈ renewal.inits, medium.rows (medium.reached (climb n ++ before)) ≤ 2 := by
  simp only [reached_concat]
  cases medium with
  | memory =>
      rw [reached_climb_memory n]
      decide +kernel
  | database =>
      rw [reached_climb (by omega)]
      exact Database.length_renewal room

/-- There are never more than two nodes. -/
theorem size_climb (medium : Medium) (room : 2 * n + 3 < NodeId.count) {before : List Operation}
    (first : before <+: climb n) : medium.size (medium.reached before) ≤ 2 := by
  refine (medium.size_le_rows _).trans ?_
  rw [← List.mem_inits] at first
  induction n generalizing before with
  | zero =>
      revert before
      cases medium <;> decide +kernel
  | succ n ih =>
      rw [climb, List.inits_append, List.mem_append] at first
      rcases first with old | new
      · exact ih (by omega) old
      · obtain ⟨late, mem, rfl⟩ := List.mem_map.mp new
        exact medium.rows_renewal room late (List.mem_of_mem_tail mem)

theorem reached_exhausting : database.reached Operation.exhausting =
    holding [componentRow (NodeId.count - 2), symbolRow (NodeId.count - 1)] :=
  reached_climb (by decide)

theorem contents_exhausting : database.contents Operation.exhausting = Entries.contents
    [componentRow (NodeId.count - 2), symbolRow (NodeId.count - 1)] [] := by
  rw [contents, reached_exhausting]
  exact Tables.contents_written

theorem reachable_reached {medium : Medium} {operations : List Operation}
    (fits : medium.Fits operations) : medium.Reachable (medium.reached operations) := by
  induction operations using List.reverseRecOn with
  | nil => exact .start
  | append_singleton before operation ih =>
      rw [reached_append]
      exact (ih (fits.before (List.prefix_append _ _))).run _
        (fits before operation (List.prefix_refl _))

theorem reachable_exhausting : database.Reachable (database.reached Operation.exhausting) :=
  reachable_reached fun _ _ _ => trivial

theorem size_exhausting (medium : Medium) {before : List Operation}
    (first : before <+: Operation.exhausting) : medium.size (medium.reached before) ≤ 2 :=
  medium.size_climb (n := 2 ^ 31 - 2) (by decide) first

end Medium

end BlastRadius
