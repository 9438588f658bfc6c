import BlastRadius.Proofs.Propagation.Termination

/-!
The closure of calls by distance. It marks the symbols from which some number of calls leads to a
marked symbol, and the records of the calls that lead one step nearer. Its rounds read the callers
of the symbols marked last; to read those of every marked symbol in each round comes to the same.
-/

namespace BlastRadius

namespace Contents

variable {c : Contents} {ids : Set NodeId}

/-- The symbols from which a chain of so many calls leads to one of the given symbols. -/
def hops (c : Contents) (ids : Set NodeId) : Nat → Set NodeId
  | 0 => ids
  | n + 1 => {s | ∃ r t, c.Calls s r t ∧ t ∈ c.hops ids n}

/-- The least number of calls that lead from a symbol to one of the given symbols is `n`. -/
def AtDistance (c : Contents) (ids : Set NodeId) (n : Nat) (s : NodeId) : Prop :=
  IsLeast {k | s ∈ c.hops ids k} n

/-- The symbols from which calls lead to a marked symbol. -/
def reachingSymbols (c : Contents) : Set NodeId :=
  {s | ∃ n, c.AtDistance (c.among c.marked .symbol) n s}

/-- The records of the calls that lead one step nearer to a marked symbol. -/
def reachingRecords (c : Contents) : Set NodeId :=
  {r | ∃ n s t, c.Calls s r t ∧ c.AtDistance (c.among c.marked .symbol) n t ∧
    c.AtDistance (c.among c.marked .symbol) (n + 1) s}

theorem exists_atDistance {n : Nat} {s : NodeId} (mem : s ∈ c.hops ids n) :
    ∃ k ≤ n, c.AtDistance ids k s := by
  classical
  have some : ∃ k, s ∈ c.hops ids k := ⟨n, mem⟩
  exact ⟨Nat.find some, Nat.find_min' some mem, Nat.find_spec some, fun _ => Nat.find_min' some⟩

theorem AtDistance.caller {n : Nat} {s r t : NodeId} (near : c.AtDistance ids n t)
    (calls : c.Calls s r t) : ∃ k ≤ n + 1, c.AtDistance ids k s :=
  exists_atDistance ⟨r, t, calls, near.1⟩

theorem mem_within_iff_atDistance {n : Nat} {s : NodeId} :
    s ∈ c.within ids n ↔ ∃ k ≤ n, c.AtDistance ids k s := by
  induction n generalizing s with
  | zero =>
      constructor
      · intro mem
        exact exists_atDistance (n := 0) mem
      · rintro ⟨k, le, near, _⟩
        obtain rfl := Nat.le_zero.mp le
        exact near
  | succ n ih =>
      constructor
      · rintro (mem | ⟨r, t, mem, calls⟩)
        · obtain ⟨k, le, near⟩ := ih.mp mem
          exact ⟨k, Nat.le_succ_of_le le, near⟩
        · obtain ⟨k, le, near⟩ := ih.mp mem
          obtain ⟨l, le', near'⟩ := near.caller calls
          exact ⟨l, le'.trans (Nat.succ_le_succ le), near'⟩
      · rintro ⟨k, le, near⟩
        rcases Nat.le_succ_iff.mp le with le | rfl
        · exact Or.inl (ih.mpr ⟨k, le, near⟩)
        · obtain ⟨r, t, calls, mem⟩ := near.1
          obtain ⟨l, le', near'⟩ := exists_atDistance mem
          exact Or.inr ⟨r, t, ih.mpr ⟨l, le', near'⟩, calls⟩

theorem mem_incoming_within_iff {n : Nat} {r : NodeId} : r ∈ c.incoming (c.within ids n) ↔
    ∃ s t, c.Calls s r t ∧ c.AtDistance ids n t ∧ c.AtDistance ids (n + 1) s := by
  constructor
  · rintro ⟨s, outside, t, inside, calls⟩
    obtain ⟨k, le, near⟩ := mem_within_iff_atDistance.mp inside
    obtain ⟨l, le', far⟩ := near.caller calls
    have beyond : n < l := by
      rw [← not_le]
      exact fun within => outside (mem_within_iff_atDistance.mpr ⟨l, within, far⟩)
    obtain rfl : k = n := by omega
    obtain rfl : l = k + 1 := by omega
    exact ⟨s, t, calls, near, far⟩
  · rintro ⟨s, t, calls, near, far⟩
    refine ⟨s, fun inside => ?_, t, mem_within_iff_atDistance.mpr ⟨n, le_rfl, near⟩, calls⟩
    obtain ⟨k, le, near'⟩ := mem_within_iff_atDistance.mp inside
    have same : k = n + 1 := near'.unique far
    omega

theorem callClosure_eq_reaching (c : Contents) :
    c.callClosure (c.among c.marked .symbol) = c.reachingSymbols ∪ c.reachingRecords := by
  ext x
  constructor
  · rintro ⟨n, symbol | record⟩
    · obtain ⟨k, _, near⟩ := mem_within_iff_atDistance.mp symbol
      exact Or.inl ⟨k, near⟩
    · exact Or.inr ⟨n, mem_incoming_within_iff.mp record⟩
  · rintro (⟨n, near⟩ | ⟨n, record⟩)
    · exact ⟨n, Or.inl (mem_within_iff_atDistance.mpr ⟨n, le_rfl, near⟩)⟩
    · exact ⟨n, Or.inr (mem_incoming_within_iff.mpr record)⟩

end Contents

namespace Propagation

variable {c : Contents}

/-- The closure of calls with every marked symbol as the frontier of every round. -/
def rescanCalls (late : Bool) : Nat → StageProgram Nat
  | 0 => return 0
  | fuel + 1 => do
      let frontier ← reading (StoreProgram.call (.markedNodes .symbol))
      let found ← reading (StoreProgram.gather unmarkedCallers (NodeId.ascending frontier))
      let newly ← commit late (found.flatMap fun (caller, record) => [caller, record])
      if newly = 0 then return 0
      else
        let later ← rescanCalls late fuel
        return newly + later

/-- Rounds that read the callers of every marked symbol mark the closure of calls, when they are
more than the nodes without a mark. -/
theorem leads_rescanCalls (valid : c.Valid) {fuel : Nat} (enough : c.markedᶜ.ncard < fuel) :
    Leads (rescanCalls false fuel).run c (.ok (callGain c)) (called c) := by
  induction fuel generalizing c with
  | zero => exact absurd enough (Nat.not_lt_zero _)
  | succ fuel ih =>
      obtain ⟨l, reads, _, found⟩ := reads_round valid (.marked c)
      have live (x : NodeId) (hx : x ∈ l.flatMap fun (caller, record) => [caller, record]) :
          x ∈ c.live := roundMarks_live valid (found ▸ hx)
      have marks := leads_commit live
      rw [found] at marks
      refine (Leads.reading (Reads.markedNodes .symbol)).bind
        ((Leads.reading reads).bind (marks.bind ?_))
      by_cases none : (roundMarks c \ c.marked).ncard = 0
      · have old : roundMarks c ⊆ c.marked := Set.sdiff_eq_empty.mp ((Set.ncard_eq_zero).mp none)
        have complete : c.CallersMarked := by
          intro s caller
          refine ⟨?_, callers_symbol valid caller⟩
          by_contra new
          exact new (old (Or.inl ⟨caller, new⟩))
        rw [if_pos none, called_of_callersMarked complete, callGain_of_callersMarked complete,
          Contents.mark_of_subset old]
        exact .pure 0
      · obtain ⟨x, new⟩ := Set.nonempty_of_ncard_ne_zero none
        have fewer := (ncard_unmarked_lt new).trans_le (Nat.le_of_lt_succ enough)
        have later := ih (valid.mark fun _ => roundMarks_live valid) fewer
        rw [callGain, called, among_roundMarks valid, Contents.callClosure_mark, mark_roundMarks]
          at later
        rw [if_neg none, callGain, ← ncard_roundMarks]
        exact later.bind (.pure _)

/-- The closure of calls marks the symbols from which calls lead to a marked one, and the records of
calls that lead one step nearer; it counts the new marks. Rounds that look at every marked symbol
mark and count the same. -/
theorem calls_marked_by_distance (medium : Medium) {s : medium.State}
    (sound : medium.view.sound s) :
    ∃ s', (runStage .allReachingSymbols).run.run medium.store s =
        (.ok ((medium.view.holds s').marked \ (medium.view.holds s).marked).ncard, s') ∧
      medium.view.holds s' = (medium.view.holds s).mark
        ((medium.view.holds s).reachingSymbols ∪ (medium.view.holds s).reachingRecords) ∧
      ∀ fuel > NodeId.count, ∃ s'', (rescanCalls false fuel).run.run medium.store s =
          (.ok ((medium.view.holds s').marked \ (medium.view.holds s).marked).ncard, s'') ∧
        medium.view.holds s'' = medium.view.holds s' := by
  have valid := medium.valid_of_sound sound
  obtain ⟨s', ran, holds, _⟩ := medium.run_of_leads sound (leads_calls valid)
  rw [Contents.callClosure_eq_reaching] at ran
  rw [called, Contents.callClosure_eq_reaching] at holds
  have count : (medium.view.holds s').marked \ (medium.view.holds s).marked =
      ((medium.view.holds s).reachingSymbols ∪ (medium.view.holds s).reachingRecords) \
        (medium.view.holds s).marked := by
    rw [holds, Contents.mark_marked, Set.union_sdiff_left]
  refine ⟨s', by rw [count]; exact ran, holds, fun fuel enough => ?_⟩
  obtain ⟨s'', ran', holds', _⟩ := medium.run_of_leads sound
    (leads_rescanCalls valid ((NodeId.ncard_le _).trans_lt enough))
  rw [callGain, Contents.callClosure_eq_reaching] at ran'
  rw [called, Contents.callClosure_eq_reaching] at holds'
  exact ⟨s'', by rw [count]; exact ran', holds'.trans holds.symm⟩

/-- The record by which the marked symbol calls back leads away from it, and is not marked. -/
theorem calls_marked_by_distance_callCycle :
    let s : Medium.database.State := (callCycle.run.run Database.store {}).2
    let c := Medium.database.view.holds s
    ∃ s', (runStage .allReachingSymbols).run.run Database.store s = (.ok 2, s') ∧
      Medium.database.view.holds s' = c.mark (c.reachingSymbols ∪ c.reachingRecords) ∧
      ∀ fuel > NodeId.count, ∃ s'', (rescanCalls false fuel).run.run Database.store s =
        (.ok 2, s'') ∧
        Medium.database.view.holds s'' = Medium.database.view.holds s' := by
  intro s c
  have sound : Medium.database.view.sound s := Medium.database.sound_of_few _ (by decide +kernel)
  have two : ((runStage .allReachingSymbols).run.run Database.store s).1.toOption = some 2 := by
    decide +kernel
  obtain ⟨s', ran, holds, rescanned⟩ := calls_marked_by_distance .database sound
  change (runStage .allReachingSymbols).run.run Database.store s = _ at ran
  rw [ran] at two
  have count := Option.some.inj two
  rw [count] at ran rescanned
  exact ⟨s', ran, holds, rescanned⟩

end Propagation

end BlastRadius
