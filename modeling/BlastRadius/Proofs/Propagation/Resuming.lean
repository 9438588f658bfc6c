import BlastRadius.Proofs.Propagation.Failing

/-!
Propagations that are cut off can be resumed by a converging one. The closure of calls reads only
unmarked callers, so that marks alone do not tell where it goes on; but wherever it stops, what it
was about to mark is what it marks when it begins once more. The other stages grow to the same
closure from whatever lies between the marks they start from and that closure.
-/

namespace BlastRadius

namespace Contents

/-- More is marked. -/
def MarkedFrom (c c' : Contents) : Prop := ∃ ids, c' = c.mark ids

theorem MarkedFrom.refl (c : Contents) : MarkedFrom c c :=
  ⟨∅, (mark_of_subset (Set.empty_subset _)).symm⟩

theorem MarkedFrom.trans {a b c : Contents} (first : MarkedFrom a b) (second : MarkedFrom b c) :
    MarkedFrom a c := by
  obtain ⟨ids, rfl⟩ := first
  obtain ⟨ids', rfl⟩ := second
  exact ⟨ids ∪ ids', mark_mark ids ids'⟩

theorem markedFrom_of_call {q : Call} (spreads : q.Spreads) :
    CallKeeps Determined MarkedFrom q := by
  intro c r c' determined
  rcases spreads with reads | marks
  · rw [determined.eq_of_reads reads]
    exact .refl c
  · cases q with
    | markNodes ids =>
        have answered : c.marking ids = (r, c') := Option.some.inj determined
        rw [marking] at answered
        split at answered
        · cases answered
          exact .refl c
        · cases answered
          exact ⟨_, rfl⟩
    | _ => cases marks

end Contents

open Contents

namespace Propagation

variable {σ : Type} {c m : Contents} {config : PropagationConfig}

theorem called_roundMarks (valid : c.Valid) : called (c.mark (roundMarks c)) = called c := by
  rw [called, among_roundMarks valid, callClosure_mark, mark_roundMarks]
  rfl

theorem converged_roundMarks (valid : c.Valid) :
    converged (c.mark (roundMarks c)) = converged c := by
  rw [converged, called_roundMarks valid]
  rfl

theorem converged_called (valid : c.Valid) : converged (called c) = converged c := by
  rw [converged, called_of_callersMarked (callersMarked_called valid)]
  rfl

theorem converged_of_callersMarked (complete : c.CallersMarked) :
    converged c = c.mark (c.closure c.marked) := by
  rw [converged, called_of_callersMarked complete]

/-- Marks between those that the closure of calls left and the ones in the end lead
to the same ones. -/
theorem converged_of_between (valid : c.Valid) (complete : c.CallersMarked) (above : MarkedFrom c m)
    (below : MarkedFrom m (converged c)) : m.Valid ∧ converged m = converged c := by
  obtain ⟨ids, rfl⟩ := above
  obtain ⟨ids', grown⟩ := below
  have final := converged_of_callersMarked complete
  have inside : c.marked ∪ ids ⊆ c.closure c.marked := by
    have marked := congrArg Contents.marked (final.symm.trans grown)
    rw [mark_marked, mark_marked, mark_marked, Set.union_eq_right.mpr (c.isLeast_closure _).1.1]
      at marked
    exact marked ▸ Set.subset_union_left
  have valid' : (c.mark ids).Valid :=
    valid.mark (Set.subset_union_right.trans (inside.trans valid.closure_live))
  have symbols : c.among (c.marked ∪ ids) .symbol = c.among c.marked .symbol := by
    refine subset_antisymm ?_ (Set.inter_subset_inter_left _ Set.subset_union_left)
    rw [← valid.among_closure_symbol c.marked]
    exact Set.inter_subset_inter_left _ inside
  have complete' : (c.mark ids).CallersMarked := by
    change c.callers (c.among (c.marked ∪ ids) .symbol) ⊆ c.among (c.marked ∪ ids) .symbol
    rw [symbols]
    exact complete
  refine ⟨valid', ?_⟩
  rw [converged_of_callersMarked complete', final, closure_mark, mark_marked,
    closure_of_between Set.subset_union_left inside, mark_mark,
    Set.union_eq_right.mpr (Set.subset_union_right.trans inside)]

theorem through_marks {α : Type} {p : Program α} {x : α} {c' : Contents}
    (spreads : p.Each Call.Spreads fun _ _ => False) (leads : Leads p c x c') :
    Through (fun m => MarkedFrom c m ∧ MarkedFrom m c') p c x c' :=
  .between MarkedFrom.refl MarkedFrom.trans markedFrom_of_call spreads leads

theorem through_propagate_inTime (valid : c.Valid) (now : config.InTime) : ∃ x c',
    Through (fun m => m.Valid ∧ converged m = converged c) (propagate config).run c x c' := by
  have valid' := called_valid valid
  have keeps (m : Contents) (sound : m.Valid) (same : m.Valid ∧ converged m = converged c) :
      (m.mark (roundMarks m)).Valid ∧ converged (m.mark (roundMarks m)) = converged c :=
    ⟨sound.mark fun _ => roundMarks_live sound, (converged_roundMarks sound).trans same.2⟩
  have first := (through_allReachingSymbols keeps valid ⟨valid, rfl⟩).mapError
    (Interrupt.inStage .allReachingSymbols)
  obtain ⟨n, reports, rounds, later⟩ : ∃ n reports rounds,
      Leads (runRounds config (NodeId.count + 1) 1).run (called c) (.ok (reports, rounds))
        ((called c).rounds (n + 1)) :=
    (leads_runRounds valid' now (Nat.lt_succ_of_le (NodeId.ncard_le _)) 1).imp
      fun n later => ⟨_, _, later.2⟩
  have counted := Leads.ofStore (reads_countMarked (valid'.rounds (n + 1)))
  have searches := searches_eachStep (C := Call.Spreads) (B := fun _ _ => False) Or.inl
  have below : MarkedFrom ((called c).rounds (n + 1)) (converged c) :=
    ⟨_, (mark_closure_rounds (called c) (n + 1)).symm⟩
  rw [propagate, now]
  -- What follows the closure of calls passes what lies between, not only what rounds leave.
  refine ⟨.ok (reportOf c ((called c).rounds (n + 1)) reports rounds), (called c).rounds (n + 1),
    first.bind ((through_marks ?_ (later.bind ?_)).mono ?_)⟩
  · refine EachStep.bind (EachStep.runRounds (C := Call.Spreads) Or.inl (fun _ => Or.inr rfl)
      config _ 1) fun _ => ?_
    exact searches.countMarked.ofStore.bind fun _ => .pure _
  · exact counted.bind (.pure _)
  · intro m between
    have final := converged_called valid
    rw [← final] at below ⊢
    exact converged_of_between valid' (callersMarked_called valid) between.1
      (between.2.trans below)

/-- Whatever its options and the clock, a propagation passes only contents from which a converging
one would end in the same way. -/
theorem through_propagate (valid : c.Valid) (config : PropagationConfig) : ∃ x c',
    Through (fun m => m.Valid ∧ converged m = converged c) (propagate config).run c x c' := by
  obtain ⟨x, c', through⟩ := through_propagate_inTime valid config.untimed_inTime
  rcases curtails_propagate config _ _ _ _ _ through with same | ⟨error, m, -, cut⟩
  · exact ⟨x, c', same⟩
  · exact ⟨.error error, m, cut⟩

/-- An attempt at a propagation: its options, and which of its calls fail with which error. -/
structure Attempt where
  config : PropagationConfig
  fault : Nat → Option StoreError

/-- Attempts one after the other. Each begins in the state that the one before it left. -/
def attempted (store : Store σ) (attempts : List Attempt) (s : σ) : σ :=
  attempts.foldl (fun s attempt =>
    ((propagate attempt.config).run.run (Scripted.store store) ⟨s, attempt.fault, 0⟩).2.inner) s

theorem attempted_keeps (medium : Medium) (attempts : List Attempt) {s : medium.State}
    (sound : medium.view.sound s) :
    medium.view.sound (attempted medium.store attempts s) ∧
      converged (medium.view.holds (attempted medium.store attempts s)) =
        converged (medium.view.holds s) := by
  induction attempts generalizing s with
  | nil => exact ⟨sound, rfl⟩
  | cons attempt rest ih =>
      have valid := medium.valid_of_sound sound
      obtain ⟨x, c', through⟩ := through_propagate valid attempt.config
      obtain ⟨sound', -, same⟩ := Program.Issues.cut_of_through medium.faithful
        (failsAs_propagate medium.store attempt.config s) sound ⟨valid, rfl⟩ through
          attempt.fault 0
      obtain ⟨sound'', same'⟩ := ih sound'
      exact ⟨sound'', same'.trans same⟩

/-- After any number of attempts, with any options and each cut off anywhere, a converging
propagation in time succeeds and leaves what it would have left in the first place. -/
theorem converging_resumes (medium : Medium) {s : medium.State} (sound : medium.view.sound s)
    (attempts : List Attempt) {config : PropagationConfig} (converge : config.converge = true)
    (inTime : config.InTime) :
    ∃ report s₁ report' s₂,
      (propagate config).run.run medium.store s = (.ok report, s₁) ∧
      (propagate config).run.run medium.store (attempted medium.store attempts s) =
        (.ok report', s₂) ∧
      medium.view.holds s₂ = medium.view.holds s₁ := by
  obtain ⟨sound', same⟩ := attempted_keeps medium attempts sound
  obtain ⟨report, leads⟩ :=
    leads_propagate_converge (medium.valid_of_sound sound) converge inTime
  obtain ⟨report', leads'⟩ :=
    leads_propagate_converge (medium.valid_of_sound sound') converge inTime
  obtain ⟨s₁, ran, holds, -⟩ := medium.run_of_leads sound leads
  obtain ⟨s₂, ran', holds', -⟩ := medium.run_of_leads sound' leads'
  exact ⟨report, s₁, report', s₂, ran, ran', holds'.trans (same.trans holds.symm)⟩

/-- The first attempt is cut off in the closure of calls, after it marked the caller, the second one
after it marked the library. -/
theorem converging_resumes_threatened :
    let marking : StoreProgram Unit := do
      threatened
      let _ ← StoreProgram.call (.markNodes [⟨1⟩])
    let s : Medium.database.State := (marking.run.run Database.store {}).2
    let cut (k : Nat) : Attempt :=
      ⟨converging, fun position => if position = k then some (.unavailable "busy") else none⟩
    let fails (s : Medium.database.State) (attempt : Attempt) : Prop :=
      ((propagate attempt.config).run.run (Scripted.store Medium.database.store)
        ⟨s, attempt.fault, 0⟩).1.isOk = false
    fails s (cut 6) ∧ fails (attempted Medium.database.store [cut 6] s) (cut 10) ∧
    ∃ report s₁ report' s₂,
      (propagate converging).run.run Medium.database.store s = (.ok report, s₁) ∧
      (propagate converging).run.run Medium.database.store
        (attempted Medium.database.store [cut 6, cut 10] s) = (.ok report', s₂) ∧
      Medium.database.view.holds s₂ = Medium.database.view.holds s₁ := by
  intro marking s cut fails
  have sound : Medium.database.view.sound s := Medium.database.sound_of_few _ (by decide +kernel)
  refine ⟨by decide +kernel, by decide +kernel, ?_⟩
  exact converging_resumes .database sound [cut 6, cut 10] (rfl : converging.converge = true)
    converging_inTime

end Propagation

end BlastRadius
