import BlastRadius.Proofs.Graph.Coherence

/-!
Records that are given their identifiers by placeholders. Slots are filled one after the other;
before each record stand as many placeholders as there are numbers missing, and in the end the
placeholders are taken out again. What remains are the slots of the graph in which each record is
placed at once, with the same identifiers free in the same order.
-/

namespace BlastRadius

/-- Records in numbered slots. A slot can be vacant, and the slot vacated last is the
first to be filled again. -/
structure Slots where
  slots : List (Option NodeRecord) := []
  vacant : List Nat := []
  deriving DecidableEq

namespace Slots

def count (s : Slots) : Nat := s.slots.countP Option.isSome

/-- Fills the slot vacated last, or else a new one. -/
def add (s : Slots) (record : NodeRecord) : Nat × Slots :=
  match s.vacant with
  | [] => (s.slots.length, { s with slots := s.slots ++ [some record] })
  | slot :: vacant => (slot, ⟨s.slots.set slot (some record), vacant⟩)

def remove (s : Slots) (slot : Nat) : Slots := ⟨s.slots.set slot none, slot :: s.vacant⟩

def placeholder : NodeRecord := { node := .binding }

/-- Adds placeholders while there are fewer records than a number, in so many steps at most, and
lists the slots of the placeholders. -/
def fill (number : Nat) : Nat → Slots → List Nat → Slots × List Nat
  | 0, s, held => (s, held)
  | steps + 1, s, held =>
      if s.count < number then fill number steps (s.add placeholder).2
        (held ++ [(s.add placeholder).1])
      else (s, held)

/-- The slots, those of placeholders and the keys of the records. -/
structure Filling where
  filled : Slots := {}
  held : List Nat := []
  keys : List (String × NodeId) := []

/-- Adds the placeholders that a record needs, its key and then the record. -/
def Filling.place (f : Filling) (entry : NodeId × NodeRecord) : Except GraphError Filling := do
  let (filled, held) := fill entry.1.toNat entry.1.toNat f.filled f.held
  let keys ← ({ index := f.keys } : DependencyGraph).enterKey entry.1 entry.2.node
  return ⟨(filled.add entry.2).2, held, keys⟩

/-- The slots and keys of records, with the placeholders taken out. -/
def rebuild (records : Entries) : Except GraphError (Slots × List (String × NodeId)) := do
  let sorted := records.mergeSort fun a b => decide (a.1 ≤ b.1)
  let f ← sorted.foldlM Filling.place {}
  return (f.held.foldl remove f.filled, f.keys)

end Slots

namespace Entries

/-- The first number beyond all records. -/
def span (entries : Entries) : Nat := (entries.map fun entry => entry.1.toNat + 1).foldr max 0

theorem span_append (entries others : Entries) :
    span (entries ++ others) = max entries.span others.span := by
  induction entries with
  | nil => simp [span]
  | cons entry rest ih =>
      change max (entry.1.toNat + 1) (span (rest ++ others)) = _
      rw [ih, ← Nat.max_assoc]
      rfl

end Entries

namespace DependencyGraph

variable {g g' : DependencyGraph} {id : NodeId} {record : NodeRecord}

/-- The numbers that were passed over or freed. -/
def gaps (g : DependencyGraph) : List Nat :=
  (List.range g.next).filter fun n => !g.contains (NodeId.ofNat n)

/-- A graph in which nothing but records was placed, each beyond the ones before it. -/
structure Placed (g : DependencyGraph) : Prop extends g.Accounted where
  edges : g.edges = []
  free : g.free = g.gaps.reverse.map NodeId.ofNat
  span : g.next = Entries.span g.nodes

theorem empty_placed : Placed empty where
  toAccounted := empty_accounted
  edges := rfl
  free := rfl
  span := rfl

theorem range_succ_eq {next number : Nat} (le : next ≤ number) : List.range (number + 1) =
    List.range next ++ List.range' next (number - next) ++ [number] := by
  obtain ⟨n, rfl⟩ := Nat.exists_eq_add_of_le le
  rw [List.range_succ, Nat.add_sub_cancel_left, List.range_eq_range', List.range_eq_range',
    ← List.range'_append_1, Nat.zero_add]

/-- What placing a record beyond all others changes. -/
structure Appends (g : DependencyGraph) (id : NodeId) (record : NodeRecord) (g' : DependencyGraph) :
    Prop where
  nodes : g'.nodes = g.nodes ++ [(id, record)]
  next : g'.next = id.toNat + 1
  index : g.enterKey id record.node = .ok g'.index
  below : ∀ n < g.next, g'.record? (NodeId.ofNat n) = g.record? (NodeId.ofNat n)
  between : ∀ n, g.next ≤ n → n < id.toNat → g'.record? (NodeId.ofNat n) = none
  self : g'.record? id = some record

theorem Appends.gaps (appends : g.Appends id record g') (beyond : g.next ≤ id.toNat) :
    g'.gaps = g.gaps ++ List.range' g.next (id.toNat - g.next) := by
  have old : (List.range g.next).filter (fun n => !g'.contains (NodeId.ofNat n)) = g.gaps :=
    List.filter_congr fun n mem => by
      rw [contains, contains, appends.below n (List.mem_range.mp mem)]
  have new : (List.range' g.next (id.toNat - g.next)).filter
      (fun n => !g'.contains (NodeId.ofNat n)) = List.range' g.next (id.toNat - g.next) := by
    refine List.filter_eq_self.mpr fun n mem => ?_
    rw [List.mem_range'_1] at mem
    rw [contains, appends.between n mem.1 (by omega)]
    rfl
  have last : [id.toNat].filter (fun n => !g'.contains (NodeId.ofNat n)) = [] := by
    simp [contains, appends.self]
  rw [DependencyGraph.gaps, appends.next, range_succ_eq beyond, List.filter_append,
    List.filter_append, old, new, last, List.append_nil]

theorem Placed.place (is : g.Placed) (beyond : g.next ≤ id.toNat)
    (placed : g.placeRecord id record = .ok g') : g'.Placed ∧ g.Appends id record g' := by
  obtain ⟨accounted, next⟩ := is.toAccounted.place beyond placed
  obtain ⟨unkeyed, index, free⟩ := placeRecord_ok is.toValid placed
  obtain ⟨same, placed', -, nodes, edges, -⟩ := placeRecord_eq is.toValid beyond unkeyed
  obtain rfl : g' = same := Except.ok.inj (placed.symm.trans placed')
  have small {n : Nat} (lt : n < id.toNat) : n < NodeId.count := lt.trans id.toNat_lt
  have record? (other : NodeId) :
      g'.record? other = (g.record? other).or (if other = id then some record else none) := by
    rw [DependencyGraph.record?, nodes, List.lookup_append, Entries.lookup_cons]
    rfl
  have other {n : Nat} (lt : n < id.toNat) : NodeId.ofNat n ≠ id := fun same =>
    lt.ne (by rw [← same, NodeId.toNat_ofNat (small lt)])
  have missing {n : Nat} (le : g.next ≤ n) (small : n < NodeId.count) :
      g.record? (NodeId.ofNat n) = none := by
    by_contra found
    have live := (contains_iff (NodeId.ofNat n)).mp (Option.isSome_iff_ne_none.mpr found)
    have below := is.below _ live
    rw [NodeId.toNat_ofNat small] at below
    omega
  have appends : g.Appends id record g' := by
    refine ⟨nodes, next, index, fun n lt => ?_, fun n le lt => ?_, ?_⟩
    · rw [record?, if_neg (other (by omega)), Option.or_none]
    · rw [record?, if_neg (other lt), missing le (small lt)]
      rfl
    · have fresh := missing beyond id.toNat_lt
      rw [NodeId.ofNat_toNat] at fresh
      rw [record?, fresh, if_pos rfl]
      rfl
  refine ⟨⟨accounted, edges.trans is.edges, ?_, ?_⟩, appends⟩
  · rw [free, is.free, appends.gaps beyond, List.reverse_append, List.map_append,
      List.map_reverse, List.map_reverse]
  · have own : Entries.span [(id, record)] = id.toNat + 1 := Nat.max_zero _
    rw [next, nodes, Entries.span_append, ← is.span, own]
    omega

theorem Placed.places {rest : Entries} (is : g.Placed) (ascending : rest.Ascending)
    (beyond : ∀ entry ∈ rest, g.next ≤ entry.1.toNat)
    (placed : rest.foldlM (fun g entry => g.placeRecord entry.1 entry.2) g = .ok g') :
    g'.Placed ∧ g'.nodes = g.nodes ++ rest := by
  have last : g'.Placed ∧ g'.nodes ++ [] = g.nodes ++ rest := by
    refine places_induct (P := fun left g' => g'.Placed ∧ g'.nodes ++ left = g.nodes ++ rest)
      (fun holds beyond placed => ?_) ⟨is, rfl⟩ ascending beyond placed
    obtain ⟨is', appends⟩ := holds.1.place beyond placed
    refine ⟨⟨is', ?_⟩, appends.next⟩
    rw [appends.nodes, List.append_assoc, List.singleton_append]
    exact holds.2
  rwa [List.append_nil] at last

/-- The records below the next number, with a placeholder in each gap. -/
def occupants (g : DependencyGraph) : List NodeRecord :=
  (List.range g.next).map fun n => (g.record? (NodeId.ofNat n)).getD Slots.placeholder

@[simp] theorem length_occupants : g.occupants.length = g.next := by
  simp [occupants]

theorem Appends.occupants (appends : g.Appends id record g') (beyond : g.next ≤ id.toNat) :
    g'.occupants =
      g.occupants ++ List.replicate (id.toNat - g.next) Slots.placeholder ++ [record] := by
  have old : (List.range g.next).map
      (fun n => (g'.record? (NodeId.ofNat n)).getD Slots.placeholder) = g.occupants :=
    List.map_congr_left fun n mem => by rw [appends.below n (List.mem_range.mp mem)]
  have new : (List.range' g.next (id.toNat - g.next)).map
      (fun n => (g'.record? (NodeId.ofNat n)).getD Slots.placeholder) =
        List.replicate (id.toNat - g.next) Slots.placeholder := by
    refine List.eq_replicate_iff.mpr ⟨by simp, fun found mem => ?_⟩
    obtain ⟨n, between, rfl⟩ := List.mem_map.mp mem
    rw [List.mem_range'_1] at between
    rw [appends.between n between.1 (by omega)]
    rfl
  have last : (g'.record? (NodeId.ofNat id.toNat)).getD Slots.placeholder = record := by
    rw [NodeId.ofNat_toNat, appends.self]
    rfl
  rw [DependencyGraph.occupants, appends.next, range_succ_eq beyond, List.map_append,
    List.map_append, old, new, List.map_singleton, last]

/-- A graph as it is filled into slots, while placeholders hold its gaps. -/
def filling (g : DependencyGraph) : Slots.Filling :=
  ⟨⟨g.occupants.map some, []⟩, g.gaps, g.index⟩

theorem fill_eq {number : Nat} (filled : List NodeRecord) (held : List Nat) {steps : Nat}
    (le : filled.length ≤ number) (enough : number ≤ filled.length + steps) :
    Slots.fill number steps ⟨filled.map some, []⟩ held =
      (⟨(filled ++ List.replicate (number - filled.length) Slots.placeholder).map some, []⟩,
        held ++ List.range' filled.length (number - filled.length)) := by
  have count (l : List NodeRecord) : Slots.count ⟨l.map some, []⟩ = l.length := by
    simp [Slots.count, List.countP_map, Function.comp_def]
  induction steps generalizing filled held with
  | zero =>
      have done : number - filled.length = 0 := by omega
      simp [Slots.fill, done]
  | succ steps ih =>
      rw [Slots.fill, count]
      split
      case isTrue lt =>
        obtain ⟨k, left⟩ : ∃ k, number - filled.length = k + 1 :=
          ⟨number - filled.length - 1, by omega⟩
        have one : number - (filled.length + 1) = k := by omega
        have added : (Slots.add ⟨filled.map some, []⟩ Slots.placeholder) =
            (filled.length, ⟨(filled ++ [Slots.placeholder]).map some, []⟩) := by
          simp [Slots.add]
        rw [added, ih (filled ++ [Slots.placeholder]) _ (by simp; omega) (by simp; omega),
          List.length_append, List.length_singleton, one, left, List.range'_succ,
          List.replicate_succ, List.append_assoc, List.append_assoc]
        rfl
      case isFalse done =>
        have none : number - filled.length = 0 := by omega
        simp [none]

theorem filling_place (is : g.Placed) (beyond : g.next ≤ id.toNat) :
    g.filling.place (id, record) = filling <$> g.placeRecord id record := by
  have le : g.occupants.length ≤ id.toNat := by rwa [length_occupants]
  have filled := fill_eq g.occupants g.gaps le (Nat.le_add_left id.toNat _)
  have keyed : ({ index := g.index } : DependencyGraph).enterKey id record.node =
      g.enterKey id record.node := rfl
  rw [Slots.Filling.place, filling]
  simp only [filled, keyed]
  cases entered : g.enterKey id record.node with
  | error error =>
      rw [placeRecord, entered]
      rfl
  | ok index =>
      obtain ⟨g', placed⟩ : ∃ g', g.placeRecord id record = .ok g' := by
        rw [placeRecord, entered]
        exact ⟨_, rfl⟩
      obtain ⟨-, appends⟩ := is.place beyond placed
      obtain rfl : index = g'.index := Except.ok.inj (entered.symm.trans appends.index)
      rw [placed]
      change Except.ok _ = Except.ok g'.filling
      rw [filling, appends.occupants beyond, appends.gaps beyond, length_occupants]
      simp [Slots.add]

theorem filling_places {rest : Entries} (is : g.Placed) (ascending : rest.Ascending)
    (beyond : ∀ entry ∈ rest, g.next ≤ entry.1.toNat) :
    rest.foldlM Slots.Filling.place g.filling =
      filling <$> rest.foldlM (fun g entry => g.placeRecord entry.1 entry.2) g := by
  induction rest generalizing g with
  | nil => rfl
  | cons entry rest ih =>
      obtain ⟨above, ascending⟩ := List.pairwise_cons.mp ascending
      have here := beyond entry List.mem_cons_self
      rw [List.foldlM_cons, List.foldlM_cons, filling_place is here]
      cases placed : g.placeRecord entry.1 entry.2 with
      | error error => rfl
      | ok g₁ =>
          obtain ⟨is₁, appends⟩ := is.place here placed
          refine ih is₁ ascending fun later mem => ?_
          rw [appends.next]
          exact above later.1 (List.mem_map_of_mem mem)

theorem removes_eq (held : List Nat) (s : Slots) : held.foldl Slots.remove s =
    ⟨s.slots.mapIdx fun n found => if n ∈ held then none else found, held.reverse ++
      s.vacant⟩ := by
  induction held generalizing s with
  | nil =>
      have same : s.slots.mapIdx (fun _ found => found) = s.slots := by
        refine List.ext_getElem? fun n => ?_
        simp
      simp [same]
  | cons slot held ih =>
      have emptied :
          (s.slots.set slot none).mapIdx (fun n found => if n ∈ held then none else found) =
          s.slots.mapIdx fun n found => if n ∈ slot :: held then none else found := by
        refine List.ext_getElem? fun n => ?_
        rw [List.getElem?_mapIdx, List.getElem?_mapIdx, List.getElem?_set]
        by_cases same : slot = n
        · subst same
          by_cases lt : slot < s.slots.length <;> simp [lt]
        · simp [same, Ne.symm same]
      rw [List.foldl_cons, ih, Slots.remove, emptied, List.reverse_cons, List.append_assoc]
      rfl

/-- Without the placeholders the slots have what the graph has. -/
theorem removes_filling (g : DependencyGraph) : g.gaps.foldl Slots.remove g.filling.filled =
    ⟨(List.range g.next).map fun n => g.record? (NodeId.ofNat n), g.gaps.reverse⟩ := by
  rw [removes_eq, filling, List.append_nil]
  congr 1
  refine List.ext_getElem? fun n => ?_
  by_cases lt : n < g.next
  · cases found : g.record? (NodeId.ofNat n) <;>
      simp [occupants, gaps, contains, lt, found]
  · simp [occupants, lt]

/-- Placeholders lead to the slots and the keys of the graph in which records are placed at once,
or to the same error. -/
theorem rebuild_eq {records : Entries} (distinct : (records.map Prod.fst).Nodup) :
    Slots.rebuild records =
      (fun g => (⟨(List.range g.next).map fun n => g.record? (NodeId.ofNat n), g.gaps.reverse⟩,
          g.index)) <$>
        (records.mergeSort fun a b => decide (a.1 ≤ b.1)).foldlM
          (fun g entry => g.placeRecord entry.1 entry.2) empty := by
  have start : ({} : Slots.Filling) = empty.filling := rfl
  rw [Slots.rebuild, start, filling_places empty_placed (sorted_ascending distinct)
    fun _ _ => Nat.zero_le _]
  cases (records.mergeSort fun a b => decide (a.1 ≤ b.1)).foldlM
      (fun g entry => g.placeRecord entry.1 entry.2) empty with
  | error error => rfl
  | ok g => exact congrArg (fun slots => Except.ok (slots, g.index)) (removes_filling g)

end DependencyGraph

end BlastRadius
