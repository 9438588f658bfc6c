import BlastRadius.Proofs.Propagation.Passes
import BlastRadius.Proofs.Propagation.Searching
import Mathlib.Logic.Relation

/-!
The closure of calls: which symbols and records of calls its rounds mark.

A round looks at the callers of the symbols that were marked last. It marks those that were not
marked yet, and the records through which they call. So a record is marked when it leads from some
distance to the next smaller one, and a record between symbols of equal distance is not.
-/

namespace BlastRadius

namespace Contents

variable (c : Contents)

/-- A record says that a symbol calls another. -/
def Calls (caller record callee : NodeId) : Prop :=
  record ∈ c.among (c.sources callee .callees) .callGraphDependency ∧
    caller ∈ c.targets record .caller

def callers (ids : Set NodeId) : Set NodeId := {s | ∃ r, ∃ t ∈ ids, c.Calls s r t}

/-- The records through which others call some symbols. -/
def incoming (ids : Set NodeId) : Set NodeId :=
  {r | ∃ s, s ∉ ids ∧ ∃ t ∈ ids, c.Calls s r t}

/-- The symbols that reach one of the given symbols by at most so many calls. -/
def within (ids : Set NodeId) : Nat → Set NodeId
  | 0 => ids
  | n + 1 => within ids n ∪ c.callers (within ids n)

/-- What the closure of calls marks from the given symbols: every symbol that reaches one of them,
and every record by which a symbol is one call farther from them than the symbol it calls. -/
def callClosure (ids : Set NodeId) : Set NodeId :=
  {x | ∃ n, x ∈ c.within ids n ∨ x ∈ c.incoming (c.within ids n)}

variable {c}

theorem within_succ' (ids : Set NodeId) (n : Nat) :
    c.within ids (n + 1) = c.within (ids ∪ c.callers ids) n := by
  induction n with
  | zero => rfl
  | succ n ih => rw [within, ih, within]

theorem subset_within (ids : Set NodeId) (n : Nat) : ids ⊆ c.within ids n := by
  induction n with
  | zero => exact subset_rfl
  | succ n ih => exact ih.trans Set.subset_union_left

/-- The closure takes one round, then goes on from what the round reached. -/
theorem callClosure_step (ids : Set NodeId) :
    c.callClosure ids = ids ∪ c.incoming ids ∪ c.callClosure (ids ∪ c.callers ids) := by
  ext x
  constructor
  · rintro ⟨_ | n, mem⟩
    · exact Or.inl mem
    · rw [within_succ'] at mem
      exact Or.inr ⟨n, mem⟩
  · rintro (mem | ⟨n, mem⟩)
    · exact ⟨0, mem⟩
    · rw [← within_succ'] at mem
      exact ⟨n + 1, mem⟩

theorem callClosure_of_closed {ids : Set NodeId} (closed : c.callers ids ⊆ ids) :
    c.callClosure ids = ids := by
  have stays (n : Nat) : c.within ids n = ids := by
    induction n with
    | zero => rfl
    | succ n ih => rw [within, ih, Set.union_eq_left.mpr closed]
  have noRecord : c.incoming ids = ∅ := by
    rw [Set.eq_empty_iff_forall_notMem]
    rintro r ⟨s, outside, t, mem, calls⟩
    exact outside (closed ⟨r, t, mem, calls⟩)
  ext x
  simp only [callClosure, stays, noRecord, Set.mem_empty_iff_false, or_false, exists_const]
  rfl

theorem callers_mark (marks ids : Set NodeId) : (c.mark marks).callers ids = c.callers ids := rfl

theorem incoming_mark (marks ids : Set NodeId) : (c.mark marks).incoming ids = c.incoming ids := rfl

theorem within_mark (marks ids : Set NodeId) (n : Nat) :
    (c.mark marks).within ids n = c.within ids n := by
  induction n with
  | zero => rfl
  | succ n ih => rw [within, within, ih, callers_mark]

theorem callClosure_mark (marks ids : Set NodeId) :
    (c.mark marks).callClosure ids = c.callClosure ids := by
  simp only [callClosure, within_mark, incoming_mark]

theorem mem_within_iff (ids : Set NodeId) (s : NodeId) : (∃ n, s ∈ c.within ids n) ↔
    ∃ t ∈ ids, Relation.ReflTransGen (fun a b => ∃ r, c.Calls a r b) s t := by
  constructor
  · rintro ⟨n, mem⟩
    induction n generalizing s with
    | zero => exact ⟨s, mem, .refl⟩
    | succ n ih =>
        rcases mem with mem | ⟨r, t, mem, calls⟩
        · exact ih s mem
        · obtain ⟨u, hu, chain⟩ := ih t mem
          exact ⟨u, hu, chain.head ⟨r, calls⟩⟩
  · rintro ⟨t, ht, chain⟩
    induction chain using Relation.ReflTransGen.head_induction_on with
    | refl => exact ⟨0, ht⟩
    | head step _ ih =>
        obtain ⟨n, mem⟩ := ih
        obtain ⟨r, calls⟩ := step
        exact ⟨n + 1, Or.inr ⟨r, _, mem, calls⟩⟩

theorem Valid.calls_kinds (valid : c.Valid) {s r t : NodeId} (calls : c.Calls s r t) :
    s ∈ c.ofKind .symbol ∧ r ∈ c.ofKind .callGraphDependency := by
  obtain ⟨⟨_, record⟩, caller⟩ := calls
  obtain ⟨a, b, hr, hs, permitted⟩ := valid.kinds caller
  rw [ofKind_eq hr record] at permitted
  obtain rfl : b = .symbol := by simpa [Relation.permitted] using permitted
  exact ⟨hs, record⟩

theorem Valid.within_symbol (valid : c.Valid) {ids : Set NodeId}
    (symbols : ids ⊆ c.ofKind .symbol)
    (n : Nat) : c.within ids n ⊆ c.ofKind .symbol := by
  induction n with
  | zero => exact symbols
  | succ n ih =>
      refine Set.union_subset ih ?_
      rintro s ⟨r, t, _, calls⟩
      exact (valid.calls_kinds calls).1

theorem Valid.incoming_record (valid : c.Valid) (ids : Set NodeId) :
    c.incoming ids ⊆ c.ofKind .callGraphDependency := by
  rintro r ⟨s, _, t, _, calls⟩
  exact (valid.calls_kinds calls).2

theorem Valid.callClosure_live (valid : c.Valid) {ids : Set NodeId}
    (symbols : ids ⊆ c.ofKind .symbol) : c.callClosure ids ⊆ c.live := by
  rintro x ⟨n, symbol | record⟩
  · exact ofKind_subset_live _ (valid.within_symbol symbols n symbol)
  · exact ofKind_subset_live _ (valid.incoming_record _ record)

end Contents

namespace Propagation

variable {c : Contents}

theorem finds_unmarkedCallers (valid : c.Valid) {t : NodeId} (live : t ∈ c.live) :
    Finds (unmarkedCallers t) c {p | c.Calls p.1 p.2 t ∧ p.1 ∉ c.marked} := by
  refine (finds_callingRecords valid live
    (g := fun r => {p | p.1 ∈ c.targets r .caller ∧ p.1 ∉ c.marked ∧ p.2 = r})
    fun r hr => ?_).congr ?_
  · refine (Finds.ofListed (Reads.targets (valid.source_live hr.1) .caller)).bind
      fun callers mem => ?_
    refine (finds_keep (q := fun s => s ∉ c.marked) fun s hs => ?_).bind
      fun unmarked memU => ⟨_, .pure _, fun p => ?_⟩
    · refine ⟨!c.isMarked s, (Reads.isMarked (valid.target_live ((mem s).mp hs))).bind
        (.pure _), ?_⟩
      rw [Bool.not_eq_true', ← Bool.not_eq_true, Contents.isMarked_eq_true]
    · rw [List.mem_map]
      constructor
      · rintro ⟨s, hs, rfl⟩
        obtain ⟨caller, new⟩ := (memU s).mp hs
        exact ⟨(mem s).mp caller, new, rfl⟩
      · obtain ⟨s, _⟩ := p
        rintro ⟨caller, new, rfl⟩
        exact ⟨s, (memU s).mpr ⟨(mem s).mpr caller, new⟩, rfl⟩
  · rintro ⟨s, r⟩
    constructor
    · rintro ⟨_, record, caller, new, rfl⟩
      exact ⟨⟨record, caller⟩, new⟩
    · rintro ⟨⟨record, caller⟩, new⟩
      exact ⟨r, record, caller, new, rfl⟩

/-- The frontier of a round: marked symbols, beyond which every caller of a marked
symbol is marked. -/
structure Frontier (c : Contents) (frontier : List NodeId) : Prop where
  symbols : ∀ t ∈ frontier, t ∈ c.among c.marked .symbol
  passed : ∀ t ∈ c.among c.marked .symbol, t ∉ frontier → ∀ s r, c.Calls s r t →
    s ∈ c.marked

/-- What a round finds: the unmarked callers of marked symbols, and the records of their calls. -/
theorem mem_round_iff (valid : c.Valid) {frontier : List NodeId} (front : Frontier c frontier)
    {l : List (NodeId × NodeId)}
    (mem : ∀ p, p ∈ l ↔ ∃ t ∈ frontier, c.Calls p.1 p.2 t ∧ p.1 ∉ c.marked)
    (x : NodeId) :
    (x ∈ l.map Prod.fst ↔ x ∈ c.callers (c.among c.marked .symbol) \ c.marked) ∧
      (x ∈ l.map Prod.snd ↔ x ∈ c.incoming (c.among c.marked .symbol)) := by
  -- Beyond the frontier there are no unmarked callers, so that a round finds those of all marked
  -- symbols.
  have pair (s r : NodeId) : (s, r) ∈ l ↔
      (∃ t ∈ c.among c.marked .symbol, c.Calls s r t) ∧ s ∉ c.marked := by
    rw [mem]
    constructor
    · rintro ⟨t, ht, calls, new⟩
      exact ⟨⟨t, front.symbols t ht, calls⟩, new⟩
    · rintro ⟨⟨t, ht, calls⟩, new⟩
      by_cases listed : t ∈ frontier
      · exact ⟨t, listed, calls, new⟩
      · exact absurd (front.passed t ht listed s r calls) new
  simp only [List.mem_map, Prod.exists, exists_and_right, exists_eq_right]
  constructor
  · constructor
    · rintro ⟨r, hp⟩
      obtain ⟨⟨t, ht, calls⟩, new⟩ := (pair x r).mp hp
      exact ⟨⟨r, t, ht, calls⟩, new⟩
    · rintro ⟨⟨r, t, ht, calls⟩, new⟩
      exact ⟨r, (pair x r).mpr ⟨⟨t, ht, calls⟩, new⟩⟩
  · constructor
    · rintro ⟨s, hp⟩
      obtain ⟨⟨t, ht, calls⟩, new⟩ := (pair s x).mp hp
      exact ⟨s, fun inside => new inside.1, t, ht, calls⟩
    · rintro ⟨s, outside, t, ht, calls⟩
      refine ⟨s, (pair s x).mpr ⟨⟨t, ht, calls⟩, fun marked => outside ?_⟩⟩
      exact ⟨marked, (valid.calls_kinds calls).1⟩

theorem mem_both {l : List (NodeId × NodeId)} {x : NodeId} :
    (x ∈ l.flatMap fun (caller, record) => [caller, record]) ↔
      x ∈ l.map Prod.fst ∨ x ∈ l.map Prod.snd := by
  induction l with
  | nil => simp
  | cons p rest ih =>
      simp only [List.flatMap_cons, List.mem_append, List.mem_cons, List.not_mem_nil, or_false, ih,
        List.map_cons]
      tauto

/-- What a round marks. -/
def roundMarks (c : Contents) : Set NodeId :=
  c.callers (c.among c.marked .symbol) \ c.marked ∪ c.incoming (c.among c.marked .symbol)

theorem callers_symbol (valid : c.Valid) {ids : Set NodeId} {s : NodeId} (h : s ∈ c.callers ids) :
    s ∈ c.ofKind .symbol := by
  obtain ⟨_, _, _, calls⟩ := h
  exact (valid.calls_kinds calls).1

theorem roundMarks_live (valid : c.Valid) {x : NodeId} (h : x ∈ roundMarks c) : x ∈ c.live := by
  rcases h with ⟨caller, _⟩ | ⟨_, _, _, _, calls⟩
  · exact Contents.ofKind_subset_live _ (callers_symbol valid caller)
  · exact Contents.ofKind_subset_live _ (valid.calls_kinds calls).2

theorem among_roundMarks (valid : c.Valid) :
    (c.mark (roundMarks c)).among (c.mark (roundMarks c)).marked .symbol =
      c.among c.marked .symbol ∪ c.callers (c.among c.marked .symbol) := by
  ext s
  constructor
  · rintro ⟨marked | ⟨caller, _⟩ | ⟨_, _, _, _, calls⟩, symbol⟩
    · exact Or.inl ⟨marked, symbol⟩
    · exact Or.inr caller
    · exact absurd symbol
        (Contents.not_mem_ofKind_of_ne (valid.calls_kinds calls).2 NodeKind.noConfusion)
  · rintro (⟨marked, symbol⟩ | caller)
    · exact ⟨Or.inl marked, symbol⟩
    · refine ⟨?_, callers_symbol valid caller⟩
      by_cases marked : s ∈ c.marked
      · exact Or.inl marked
      · exact Or.inr (Or.inl ⟨caller, marked⟩)

/-- A round and the closure after it mark what the closure before it marks. -/
theorem roundMarks_union (c : Contents) :
    c.marked ∪ (roundMarks c ∪
      c.callClosure (c.among c.marked .symbol ∪ c.callers (c.among c.marked .symbol))) =
        c.marked ∪ c.callClosure (c.among c.marked .symbol) := by
  have old : c.among c.marked .symbol ⊆ c.marked := Set.inter_subset_left
  have next : c.callers (c.among c.marked .symbol) ⊆
      c.callClosure (c.among c.marked .symbol ∪ c.callers (c.among c.marked .symbol)) :=
    fun _ mem => ⟨0, Or.inl (Or.inr mem)⟩
  rw [Contents.callClosure_step (c.among c.marked .symbol), roundMarks]
  ext x
  simp only [Set.mem_union, Set.mem_sdiff]
  have h₁ := @old x
  have h₂ := @next x
  tauto

theorem ncard_roundMarks (c : Contents) : (roundMarks c \ c.marked).ncard +
    (c.callClosure (c.among c.marked .symbol ∪ c.callers (c.among c.marked .symbol)) \
      (c.mark (roundMarks c)).marked).ncard =
        (c.callClosure (c.among c.marked .symbol) \ c.marked).ncard := by
  rw [Contents.mark_marked, ncard_add, ← Set.union_sdiff_left, roundMarks_union,
    Set.union_sdiff_left]

theorem mark_roundMarks (c : Contents) : (c.mark (roundMarks c)).mark
    (c.callClosure (c.among c.marked .symbol ∪ c.callers (c.among c.marked .symbol))) =
      c.mark (c.callClosure (c.among c.marked .symbol)) := by
  rw [Contents.mark_mark]
  exact Contents.ext rfl rfl (roundMarks_union c)

theorem ncard_unmarked_lt {x : NodeId} (new : x ∈ roundMarks c \ c.marked) :
    (c.mark (roundMarks c)).markedᶜ.ncard < c.markedᶜ.ncard := by
  refine Set.ncard_lt_ncard ⟨Set.compl_subset_compl.mpr Set.subset_union_left, fun sub => ?_⟩
  exact sub new.2 (Or.inr new.1)

theorem Frontier.next (valid : c.Valid) {l : List NodeId}
    (found : ∀ s, s ∈ l ↔ s ∈ c.callers (c.among c.marked .symbol) \ c.marked) :
    Frontier (c.mark (roundMarks c)) l where
  symbols s mem := by
    have caller := (found s).mp mem
    exact ⟨Or.inr (Or.inl caller), callers_symbol valid caller.1⟩
  passed t mem outside s r calls := by
    rw [among_roundMarks valid] at mem
    have old : t ∈ c.among c.marked .symbol := by
      rcases mem with old | caller
      · exact old
      · refine ⟨not_not.mp fun unmarked => outside ?_, callers_symbol valid caller⟩
        exact (found t).mpr ⟨caller, unmarked⟩
    by_cases marked : s ∈ c.marked
    · exact Or.inl marked
    · exact Or.inr (Or.inl ⟨⟨r, t, old, calls⟩, marked⟩)

theorem callClosure_of_roundMarks (valid : c.Valid) (nothing : roundMarks c = ∅) :
    c.callClosure (c.among c.marked .symbol) = c.among c.marked .symbol := by
  refine Contents.callClosure_of_closed fun s caller => ?_
  refine ⟨not_not.mp fun new => ?_, callers_symbol valid caller⟩
  have mem : s ∈ roundMarks c := Or.inl ⟨caller, new⟩
  rw [nothing] at mem
  exact Set.notMem_empty s mem

theorem reads_round (valid : c.Valid) {frontier : List NodeId} (front : Frontier c frontier) :
    ∃ l, Reads (StoreProgram.gather unmarkedCallers frontier) c l ∧
      (∀ s, s ∈ l.map Prod.fst ↔ s ∈ c.callers (c.among c.marked .symbol) \ c.marked) ∧
      {x | x ∈ l.flatMap fun (caller, record) => [caller, record]} = roundMarks c := by
  obtain ⟨l, reads, mem⟩ := Finds.gather fun t ht =>
    finds_unmarkedCallers valid (valid.marked_live (front.symbols t ht).1)
  have round := mem_round_iff valid front mem
  refine ⟨l, reads, fun s => (round s).1, ?_⟩
  ext x
  rw [roundMarks, Set.mem_union, ← (round x).1, ← (round x).2]
  exact mem_both

/-- The rounds of the closure mark the closure of the marked symbols, when the fuel is more than the
number of nodes without a mark. They pass what the marks of a round keep. -/
theorem through_closeCalls {I : Contents → Prop}
    (keeps : ∀ c, c.Valid → I c → I (c.mark (roundMarks c))) (valid : c.Valid) (here : I c)
    {frontier : List NodeId} (front : Frontier c frontier) {fuel : Nat}
    (enough : c.markedᶜ.ncard < fuel) (step : Nat) :
    Through I (closeCalls (fun _ => false) fuel step frontier).run c
      (.ok (c.callClosure (c.among c.marked .symbol) \ c.marked).ncard)
      (c.mark (c.callClosure (c.among c.marked .symbol))) := by
  induction fuel generalizing c frontier step with
  | zero => exact absurd enough (Nat.not_lt_zero _)
  | succ fuel ih =>
      obtain ⟨l, reads, callers, found⟩ := reads_round valid front
      have search : Through I (StoreProgram.gather unmarkedCallers frontier).run c (.ok l) c :=
        have searches := searches_eachStep (C := fun q => q.reads = true) (B := fun _ _ => False) id
        Through.of_reading here (searches.gather searches.unmarkedCallers) reads
      have live (x : NodeId) (hx : x ∈ l.flatMap fun (caller, record) => [caller, record]) :
          x ∈ c.live := roundMarks_live valid (found ▸ hx)
      have there := keeps c valid here
      have marks := through_commit (I := I) live here (by rwa [found])
      rw [found] at marks
      refine (Through.reading search).bind (marks.bind ?_)
      rcases l with _ | ⟨p, rest⟩
      · have nothing : roundMarks c = ∅ := by
          rw [← found]
          simp
        have sub : c.among c.marked .symbol ⊆ c.marked := Set.inter_subset_left
        rw [callClosure_of_roundMarks valid nothing, nothing, Contents.mark_of_subset sub,
          Contents.mark_of_subset (Set.empty_subset _), Set.sdiff_eq_empty.mpr sub]
        simp only [Set.empty_sdiff, Set.ncard_empty, if_pos]
        exact .pure 0
      · have new : p.1 ∈ roundMarks c \ c.marked := by
          have caller := (callers p.1).mp (by simp)
          exact ⟨Or.inl caller, caller.2⟩
        have front' : Frontier (c.mark (roundMarks c))
            (NodeId.ascending ((p :: rest).map Prod.fst)) :=
          .next valid fun s => NodeId.mem_ascending.trans (callers s)
        have fewer := (ncard_unmarked_lt new).trans_le (Nat.le_of_lt_succ enough)
        have later := ih (valid.mark fun _ => roundMarks_live valid) there front' fewer (step + 1)
        rw [among_roundMarks valid, Contents.callClosure_mark, mark_roundMarks] at later
        rw [if_neg (Set.ncard_ne_zero_of_mem new), ← ncard_roundMarks]
        exact later.bind (.pure _)

theorem Frontier.marked (c : Contents) :
    Frontier c (NodeId.ascending (NodeId.listed (c.among c.marked .symbol))) where
  symbols t mem := by rwa [NodeId.mem_ascending, NodeId.mem_listed] at mem
  passed t mem outside := by
    rw [NodeId.mem_ascending, NodeId.mem_listed] at outside
    exact absurd mem outside

theorem through_allReachingSymbols {I : Contents → Prop}
    (keeps : ∀ c, c.Valid → I c → I (c.mark (roundMarks c))) (valid : c.Valid) (here : I c) :
    Through I (allReachingSymbols fun _ => false).run c
      (.ok (c.callClosure (c.among c.marked .symbol) \ c.marked).ncard)
      (c.mark (c.callClosure (c.among c.marked .symbol))) := by
  have enough : c.markedᶜ.ncard < NodeId.count + 1 := Nat.lt_succ_of_le (NodeId.ncard_le _)
  have first : Through I (StoreProgram.call (.markedNodes .symbol)).run c
      (.ok (NodeId.listed (c.among c.marked .symbol))) c := .call rfl here here
  exact (Through.reading first).bind (through_closeCalls keeps valid here (.marked c) enough 0)

theorem leads_allReachingSymbols (valid : c.Valid) :
    Leads (allReachingSymbols fun _ => false).run c
      (.ok (c.callClosure (c.among c.marked .symbol) \ c.marked).ncard)
      (c.mark (c.callClosure (c.among c.marked .symbol))) :=
  (through_allReachingSymbols (I := fun _ => True) (fun _ _ _ => trivial) valid trivial).leads

end Propagation

end BlastRadius
