import BlastRadius.Proofs.Propagation.RoundByRound
import BlastRadius.Proofs.Store.Loops

/-!
Propagations end. Their two loops, the rounds of the closure of calls and the rounds of the other
stages, are bounded by nothing but what is left to mark: each goes on only after it marked a node,
and no mark is taken back. So the bound on the rounds that the program has is never reached.
-/

namespace BlastRadius.Propagation

open StoreProgram (call gather)

variable {σ : Type} {store : Store σ} {late : Nat → Bool} {config : PropagationConfig}
  {c : Contents}

/-- One round of the closure of calls, from its number, a frontier and how many nodes
were marked before. -/
def closing (late : Nat → Bool) (t : Nat × List NodeId × Nat) :
    StageProgram ((Nat × List NodeId × Nat) ⊕ Nat) := do
  let found ← reading (gather unmarkedCallers t.2.1)
  let newly ← commit (late t.1) (found.flatMap fun (caller, record) => [caller, record])
  if newly = 0 then return .inr t.2.2
  else return .inl (t.1 + 1, NodeId.ascending (found.map Prod.fst), t.2.2 + newly)

/-- One round of the other stages, from its number and the reports of the rounds before. -/
def circling (config : PropagationConfig) (t : Nat × List StageReport) :
    ImpactProgram ((Nat × List StageReport) ⊕ (List StageReport × Nat)) := do
  let reports ← runStages (config.late t.1) t.1 Stage.downstream
  if config.converge && StageReport.total reports != 0 then
    return .inl (t.1 + 1, t.2 ++ reports)
  else return .inr (t.2 ++ reports, t.1)

/-- The closure of calls ends after so many rounds. -/
inductive Closes (store : Store σ) (late : Nat → Bool) :
    σ → Nat → Except Interrupt Nat → σ → Prop where
  | unread {s s' : σ} {interrupt : Interrupt} :
      (reading (call (.markedNodes .symbol))).run.run store s = (.error interrupt, s') →
      Closes store late s 0 (.error interrupt) s'
  | closed {s m s' : σ} {symbols : List NodeId} {n : Nat} {x : Except Interrupt Nat} :
      (reading (call (.markedNodes .symbol))).run.run store s = (.ok symbols, m) →
      Ends store (closing late) (0, NodeId.ascending symbols, 0) m n x s' →
      Closes store late s n x s'

/-- A propagation whose loops have no bound ends after so many rounds of the closure of calls and so
many rounds of the other stages. -/
inductive Propagates (store : Store σ) (config : PropagationConfig) :
    σ → Nat → Nat → Except ImpactError PropagationReport → σ → Prop where
  | stopped {s s' : σ} {n : Nat} {interrupt : Interrupt} :
      Closes store (config.late 1 .allReachingSymbols) s n (.error interrupt) s' →
      Propagates store config s n 0 (.error (interrupt.inStage .allReachingSymbols)) s'
  | failed {s m s' : σ} {n newly rounds : Nat} {error : ImpactError} :
      Closes store (config.late 1 .allReachingSymbols) s n (.ok newly) m →
      Ends store (circling config) (1, []) m rounds (.error error) s' →
      Propagates store config s n rounds (.error error) s'
  | counted {s m m' s' : σ} {n newly rounds last : Nat} {reports : List StageReport}
      {total : Except ImpactError Nat} :
      Closes store (config.late 1 .allReachingSymbols) s n (.ok newly) m →
      Ends store (circling config) (1, []) m rounds (.ok (reports, last)) m' →
      (ImpactProgram.ofStore StoreProgram.countMarked).run.run store m' = (total, s') →
      Propagates store config s n rounds
        (total.map fun total => {
          stages := ⟨.allReachingSymbols, 1, newly⟩ :: reports
          rounds := last
          totalMarked := total }) s'

theorem Closes.unique {s s' s'' : σ} {n n' : Nat} {x y : Except Interrupt Nat}
    (first : Closes store late s n x s') (second : Closes store late s n' y s'') :
    n' = n ∧ y = x ∧ s'' = s' := by
  cases first with
  | unread ran =>
      cases second with
      | unread ran' =>
          cases ran.symm.trans ran'
          exact ⟨rfl, rfl, rfl⟩
      | closed ran' _ => cases ran.symm.trans ran'
  | closed ran ends =>
      cases second with
      | unread ran' => cases ran.symm.trans ran'
      | closed ran' ends' =>
          cases ran.symm.trans ran'
          exact ends.unique ends'

/-- The number of rounds, and how a propagation ends, is determined by the state
in which it begins. -/
theorem Propagates.unique {s s' s'' : σ} {n n' rounds rounds' : Nat}
    {x y : Except ImpactError PropagationReport} (first : Propagates store config s n rounds x s')
    (second : Propagates store config s n' rounds' y s'') :
    n' = n ∧ rounds' = rounds ∧ y = x ∧ s'' = s' := by
  cases first with
  | stopped closes =>
      cases second with
      | stopped closes' =>
          obtain ⟨rfl, result, rfl⟩ := closes.unique closes'
          cases result
          exact ⟨rfl, rfl, rfl, rfl⟩
      | failed closes' _ | counted closes' _ _ => cases (closes.unique closes').2.1
  | failed closes ends =>
      cases second with
      | stopped closes' => cases (closes.unique closes').2.1
      | failed closes' ends' =>
          obtain ⟨rfl, result, rfl⟩ := closes.unique closes'
          cases result
          obtain ⟨rfl, result, rfl⟩ := ends.unique ends'
          cases result
          exact ⟨rfl, rfl, rfl, rfl⟩
      | counted closes' ends' _ =>
          obtain ⟨rfl, result, rfl⟩ := closes.unique closes'
          cases result
          cases (ends.unique ends').2.1
  | counted closes ends ran =>
      cases second with
      | stopped closes' => cases (closes.unique closes').2.1
      | failed closes' ends' =>
          obtain ⟨rfl, result, rfl⟩ := closes.unique closes'
          cases result
          cases (ends.unique ends').2.1
      | counted closes' ends' ran' =>
          obtain ⟨rfl, result, rfl⟩ := closes.unique closes'
          cases result
          obtain ⟨rfl, result, rfl⟩ := ends.unique ends'
          cases result
          cases ran.symm.trans ran'
          exact ⟨rfl, rfl, rfl, rfl⟩

theorem unrolls_closeCalls (store : Store σ) (late : Nat → Bool) : Unrolls store (closing late)
    (fun fuel t => closeCalls late fuel t.1 t.2.1) fun t later => t.2.2 + later := by
  intro t s
  simp only [closing, closeCalls, Program.run_exceptT_bind]
  rcases (reading (gather unmarkedCallers t.2.1)).run.run store s with ⟨interrupt | found, m⟩
  · exact Or.inl ⟨interrupt, m, rfl, fun _ => rfl⟩
  · simp only [andThen, Program.run_exceptT_bind]
    rcases committed : (commit (late t.1) (found.flatMap fun p => [p.1, p.2])).run.run store m with
      ⟨interrupt | newly, m'⟩ <;> simp only [committed]
    · exact Or.inl ⟨interrupt, m', rfl, fun _ => rfl⟩
    · by_cases none : newly = 0
      · refine Or.inr (Or.inl ⟨0, m', ?_⟩)
        simp only [if_pos none]
        exact ⟨rfl, fun _ => rfl⟩
      · refine Or.inr
          (Or.inr ⟨(t.1 + 1, NodeId.ascending (found.map Prod.fst), t.2.2 + newly), m',
          fun later => newly + later, ?_⟩)
        simp only [if_neg none]
        exact ⟨rfl, fun later => (Nat.add_assoc _ _ later).symm, fun _ => rfl⟩

theorem unrolls_runRounds (store : Store σ) (config : PropagationConfig) :
    Unrolls store (circling config) (fun fuel t => runRounds config fuel t.1)
      fun t later => (t.2 ++ later.1, later.2) := by
  intro t s
  simp only [circling, runRounds, Program.run_exceptT_bind]
  rcases (runStages (config.late t.1) t.1 Stage.downstream).run.run store s with
    ⟨error | reports, m⟩ <;> simp only [andThen]
  · exact Or.inl ⟨error, m, rfl, fun _ => rfl⟩
  · by_cases more : (config.converge && StageReport.total reports != 0) = true
    · refine Or.inr (Or.inr ⟨(t.1 + 1, t.2 ++ reports), m,
        fun later => (reports ++ later.1, later.2), ?_⟩)
      simp only [if_pos more]
      exact ⟨rfl, fun _ => by rw [List.append_assoc], fun _ => rfl⟩
    · refine Or.inr (Or.inl ⟨(reports, t.1), m, ?_⟩)
      simp only [if_neg more]
      exact ⟨rfl, fun _ => rfl⟩

theorem execute_of_closes {late : Stage → Nat → Bool} {s s' : σ} {n : Nat}
    {x : Except Interrupt Nat} (closes : Closes store (late .allReachingSymbols) s n x s')
    (enough : n ≤ NodeId.count + 1) :
    (execute late .allReachingSymbols).run.run store s =
      (x.mapError (Interrupt.inStage .allReachingSymbols), s') := by
  have stage : (pass (late .allReachingSymbols) .allReachingSymbols).run.run store s = (x, s') := by
    rw [pass, allReachingSymbols, Program.run_exceptT_bind]
    cases closes with
    | unread ran => rw [ran]; rfl
    | closed ran ends =>
        obtain ⟨y, later, rfl⟩ := (unrolls_closeCalls store _).run_of_ends ends enough
        rw [ran]
        refine later.trans ?_
        cases y with
        | error interrupt => rfl
        | ok newly => rw [Except.map, Nat.zero_add]
  rw [execute, ExceptT.run_mk, Program.run_mapError, stage]

/-- When the loops end within the bounds of the program, the program does what they do. -/
theorem propagate_of_propagates {s s' : σ} {n rounds : Nat}
    {x : Except ImpactError PropagationReport}
    (propagates : Propagates store config s n rounds x s')
    (enough : n ≤ NodeId.count + 1) (enough' : rounds ≤ NodeId.count + 1) :
    (propagate config).run.run store s = (x, s') := by
  rw [propagate, Program.run_exceptT_bind]
  cases propagates with
  | stopped closes =>
      rw [execute_of_closes closes enough]
      rfl
  | failed closes ends =>
      obtain ⟨y, later, same⟩ := (unrolls_runRounds store config).run_of_ends ends enough'
      rw [execute_of_closes closes enough]
      change (andThen _ (.ok _)).run store _ = _
      rw [andThen, Program.run_exceptT_bind, later]
      cases y <;> cases same
      rfl
  | @counted _ _ _ _ _ _ _ _ total closes ends ran =>
      obtain ⟨y, later, same⟩ := (unrolls_runRounds store config).run_of_ends ends enough'
      rw [execute_of_closes closes enough]
      change (andThen _ (.ok _)).run store _ = _
      rw [andThen, Program.run_exceptT_bind, later]
      cases y <;> cases same
      change (andThen _ (.ok _)).run store _ = _
      rw [andThen, Program.run_exceptT_bind, ran]
      cases total <;> rfl

noncomputable def unmarkedSymbols (c : Contents) : Nat := (c.ofKind .symbol \ c.marked).ncard

noncomputable def unmarkedNodes (c : Contents) : Nat := (c.live \ c.marked).ncard

theorem unmarkedSymbols_lt (valid : c.Valid) {x : NodeId} (new : x ∈ roundMarks c \ c.marked) :
    unmarkedSymbols (c.mark (roundMarks c)) < unmarkedSymbols c := by
  have caller : ∃ s ∈ c.callers (c.among c.marked .symbol), s ∉ c.marked := by
    rcases new.1 with ⟨caller, unmarked⟩ | ⟨s, outside, t, mem, calls⟩
    · exact ⟨x, caller, unmarked⟩
    · exact ⟨s, ⟨x, t, mem, calls⟩, fun marked =>
        outside ⟨marked, (valid.calls_kinds calls).1⟩⟩
  obtain ⟨s, called, unmarked⟩ := caller
  refine Set.ncard_lt_ncard ⟨Set.sdiff_subset_sdiff_right Set.subset_union_left, fun sub => ?_⟩
  exact (sub ⟨callers_symbol valid called, unmarked⟩).2 (Or.inr (Or.inl ⟨called, unmarked⟩))

theorem unmarkedNodes_lt (valid : c.Valid) (some : gain c Stage.roundRules ≠ 0) :
    unmarkedNodes (c.sweep Stage.roundRules) < unmarkedNodes c := by
  obtain ⟨ids, swept⟩ := Contents.exists_sweep (c := c) Stage.roundRules
  have valid' := valid.sweep Stage.of_mem_roundRules
  obtain ⟨x, marked, unmarked⟩ := Set.not_subset.mp (mt gain_eq_zero.mpr some)
  have live := valid'.marked_live marked
  rw [swept] at marked live ⊢
  refine Set.ncard_lt_ncard ⟨Set.sdiff_subset_sdiff_right Set.subset_union_left, fun sub => ?_⟩
  exact (sub ⟨live, unmarked⟩).2 marked

/-- A round that comes too late ends the loop. One in time does so too, or marks a symbol. -/
theorem leads_closing (valid : c.Valid) {t : Nat × List NodeId × Nat} (front : Frontier c t.2.1) :
    ∃ x c', Leads (closing late t).run c x c' ∧ ∀ t', x = .ok (.inl t') →
      Frontier c' t'.2.1 ∧ unmarkedSymbols c' < unmarkedSymbols c := by
  obtain ⟨l, reads, callers, found⟩ := reads_round valid front
  cases now : late t.1 with
  | true =>
      refine ⟨.error .deadline, c, (Leads.reading reads).bind (Leads.bind_error ?_), nofun⟩
      rw [now]
      exact .throw _
  | false =>
      have marks := leads_commit fun x hx =>
          roundMarks_live valid (found ▸ hx : x ∈ roundMarks c)
      rw [found, ← now] at marks
      by_cases none : (roundMarks c \ c.marked).ncard = 0
      · refine ⟨.ok (.inr t.2.2), c.mark (roundMarks c),
          (Leads.reading reads).bind (marks.bind ?_), by simp⟩
        rw [if_pos none]
        exact .pure _
      · obtain ⟨x, new⟩ := Set.nonempty_of_ncard_ne_zero none
        refine ⟨.ok (.inl (t.1 + 1, NodeId.ascending (l.map Prod.fst),
          t.2.2 + (roundMarks c \ c.marked).ncard)), c.mark (roundMarks c),
          (Leads.reading reads).bind (marks.bind ?_), ?_⟩
        · rw [if_neg none]
          exact .pure _
        · rintro _ ⟨⟩
          exact ⟨.next valid fun s => NodeId.mem_ascending.trans (callers s),
            unmarkedSymbols_lt valid new⟩

theorem leads_circling (valid : c.Valid) (config : PropagationConfig)
    (t : Nat × List StageReport) :
    ∃ x c', Leads (circling config t).run c x c' ∧ ∀ t', x = .ok (.inl t') →
      unmarkedNodes c' < unmarkedNodes c := by
  have total := total_reportsOf t.1 Stage.downstream c
  rcases curtails_runStages (config.late t.1) t.1 Stage.downstream _ _ _ _ _
    (leads_round valid t.1) with swept | ⟨error, m, -, cut⟩
  · by_cases more :
        (config.converge && StageReport.total (reportsOf t.1 Stage.downstream c) != 0) = true
    · refine ⟨.ok (.inl (t.1 + 1, t.2 ++ reportsOf t.1 Stage.downstream c)),
        c.sweep Stage.roundRules, Leads.bind swept ?_, ?_⟩
      · rw [if_pos more]
        exact .pure _
      · rintro _ ⟨⟩
        refine unmarkedNodes_lt valid ?_
        rw [total, Bool.and_eq_true, bne_iff_ne] at more
        exact more.2
    · refine ⟨.ok (.inr (t.2 ++ reportsOf t.1 Stage.downstream c, t.1)),
        c.sweep Stage.roundRules, Leads.bind swept ?_, by simp⟩
      rw [if_neg more]
      exact .pure _
  · exact ⟨.error error, m, Leads.bind_error cut, nofun⟩

theorem exists_closes (medium : Medium) {s : medium.State} (sound : medium.view.sound s)
    (late : Nat → Bool) : ∃ n x s', Closes medium.store late s n x s' ∧
      n ≤ unmarkedSymbols (medium.view.holds s) + 1 := by
  have symbols := Leads.reading (Reads.markedNodes (c := medium.view.holds s) .symbol)
  obtain ⟨m, ran, holds, sound'⟩ := medium.run_of_leads sound symbols
  have front := Frontier.marked (medium.view.holds s)
  rw [← holds] at front
  -- Each round but the last marks a symbol, which is the measure that decreases.
  obtain ⟨n, x, s', ends, few, -⟩ := Ends.of_decreasing medium unmarkedSymbols
    (I := fun t c => Frontier c t.2.1) (fun t c valid => leads_closing valid) sound'
    (t := (0, _, 0)) front
  rw [holds] at few ends
  exact ⟨n, x, s', .closed ran ends, few⟩

theorem circling_number {t : Nat × List StageReport} {s s' : σ}
    {y : (Nat × List StageReport) ⊕ (List StageReport × Nat)}
    (ran : (circling config t).run.run store s = (.ok y, s')) :
    y.elim (fun next => next.1 = t.1 + 1) fun result => result.2 = t.1 := by
  rw [circling, Program.run_exceptT_bind] at ran
  rcases first : (runStages (config.late t.1) t.1 Stage.downstream).run.run store s with
    ⟨error | reports, m⟩
  · rw [first] at ran
    cases ran
  · rw [first, andThen] at ran
    split at ran <;> cases ran <;> rfl

theorem last_of_ends {t : Nat × List StageReport} {s s' : σ} {n : Nat}
    {x : Except ImpactError (List StageReport × Nat)}
    (ends : Ends store (circling config) t s n x s') {reports : List StageReport} {last : Nat}
    (result : x = .ok (reports, last)) : last + 1 = t.1 + n := by
  induction ends with
  | failed _ => cases result
  | ended ran =>
      cases result
      exact congrArg (· + 1) (circling_number ran)
  | again ran _ ih =>
      have number : _ = _ := circling_number ran
      have later := ih result
      rw [number] at later
      omega

/-- After the first stage, a propagation ends after at most one round more than there are nodes
without a mark. -/
theorem exists_propagates (medium : Medium) {s m : medium.State} {config : PropagationConfig}
    {n newly : Nat}
    (closes : Closes medium.store (config.late 1 .allReachingSymbols) s n (.ok newly) m)
    (sound : medium.view.sound m) :
    ∃ rounds x s', Propagates medium.store config s n rounds x s' ∧
      rounds ≤ unmarkedNodes (medium.view.holds m) + 1 ∧
      ∀ report, x = .ok report → report.rounds = rounds := by
  obtain ⟨rounds, x, m', ends, few, -⟩ := Ends.of_decreasing medium unmarkedNodes
    (I := fun _ _ => True) (fun t c valid _ => by simpa using leads_circling valid config t) sound
    (t := (1, [])) trivial
  rcases x with error | ⟨reports, last⟩
  · exact ⟨rounds, _, m', .failed closes ends, few, by simp⟩
  · rcases counted : (ImpactProgram.ofStore StoreProgram.countMarked).run.run medium.store m' with
      ⟨error | total, s'⟩
    · exact ⟨rounds, _, s', .counted closes ends counted, few, by simp [Except.map]⟩
    · refine ⟨rounds, _, s', .counted closes ends counted, few, ?_⟩
      rintro _ ⟨⟩
      exact Nat.add_left_cancel ((Nat.add_comm 1 last).trans (last_of_ends ends rfl))

theorem holds_of_closes (medium : Medium) {s m : medium.State} (sound : medium.view.sound s)
    {late : Stage → Nat → Bool} {n newly : Nat}
    (closes : Closes medium.store (late .allReachingSymbols) s n (.ok newly) m)
    (enough : n ≤ NodeId.count + 1) :
    medium.view.sound m ∧ medium.view.holds m = called (medium.view.holds s) := by
  have first := execute_of_closes closes enough
  have leads := leads_calls (medium.valid_of_sound sound)
  rcases curtails_execute late .allReachingSymbols _ _ _ _ _ leads with
    same | ⟨error, c', -, cut⟩
  · obtain ⟨m', ran, holds, sound'⟩ := medium.run_of_leads sound same
    cases ran.symm.trans first
    exact ⟨sound', holds⟩
  · obtain ⟨m', ran, -⟩ := medium.run_of_leads sound cut
    cases ran.symm.trans first

/-- A propagation with any options and under any clock ends, in whatever way calls and stages feed
each other. The closure of calls takes at most one round more than there were symbols without a
mark, and the other stages at most one more than there are nodes without a mark when they begin. In
time, it succeeds and reports how many rounds they took. -/
theorem propagate_terminates (medium : Medium) {s : medium.State} (sound : medium.view.sound s)
    (config : PropagationConfig) :
    let begun := medium.view.holds s
    let called := medium.view.holds ((runStage .allReachingSymbols).run.run medium.store s).2
    ∃ closings rounds x s', Propagates medium.store config s closings rounds x s' ∧
      (propagate config).run.run medium.store s = (x, s') ∧
      closings ≤ (begun.ofKind .symbol \ begun.marked).ncard + 1 ∧
      rounds ≤ (called.live \ called.marked).ncard + 1 ∧
      (config.InTime → ∃ report, x = .ok report ∧ report.rounds = rounds) := by
  intro begun called
  have valid := medium.valid_of_sound sound
  have bounded (ids marks : Set NodeId) : (ids \ marks).ncard + 1 ≤ NodeId.count + 1 :=
    Nat.succ_le_succ (NodeId.ncard_le _)
  have succeeds (now : config.InTime) {x : Except ImpactError PropagationReport}
      {s' : medium.State} (ran : (propagate config).run.run medium.store s = (x, s')) :
      ∃ report, x = .ok report := by
    obtain ⟨report, c', whole⟩ := exists_leads_propagate valid now
    obtain ⟨t, succeeds, -⟩ := medium.run_of_leads sound whole
    exact ⟨report, congrArg Prod.fst (ran.symm.trans succeeds)⟩
  obtain ⟨n, x, m, closes, few⟩ :=
    exists_closes medium sound (config.late 1 .allReachingSymbols)
  cases x with
  | error interrupt =>
      have propagates : Propagates medium.store config s n 0 _ m := .stopped closes
      have same := propagate_of_propagates propagates (few.trans (bounded _ _)) (Nat.zero_le _)
      refine ⟨n, 0, _, m, propagates, same, few, Nat.zero_le _, fun now => ?_⟩
      obtain ⟨report, absurd⟩ := succeeds now same
      cases absurd
  | ok newly =>
      obtain ⟨sound', holds⟩ := holds_of_closes medium sound closes (few.trans (bounded _ _))
      obtain ⟨rounds, x, s', propagates, few', number⟩ := exists_propagates medium closes sound'
      have same := propagate_of_propagates propagates (few.trans (bounded _ _))
        (few'.trans (bounded _ _))
      obtain ⟨m', ran, left, -⟩ := medium.run_of_leads sound (leads_calls valid)
      have left : called = medium.view.holds m :=
        (congrArg (medium.view.holds ·.2) ran).trans (left.trans holds.symm)
      rw [left]
      refine ⟨n, rounds, x, s', propagates, same, few, few', fun now => ?_⟩
      obtain ⟨report, rfl⟩ := succeeds now same
      exact ⟨report, rfl, number report rfl⟩

/-- Two symbols that call each other, one of which is marked. -/
def callCycle : StoreProgram Unit := do
  let parse ← StoreProgram.call (.insertNode (.symbol "parse"))
  let main ← StoreProgram.call (.insertNode (.symbol "main"))
  let calling ← StoreProgram.call (.insertNode .callGraphDependency)
  let called ← StoreProgram.call (.insertNode .callGraphDependency)
  let _ ← StoreProgram.call (.insertEdge ⟨calling, .caller, main⟩)
  let _ ← StoreProgram.call (.insertEdge ⟨calling, .callees, parse⟩)
  let _ ← StoreProgram.call (.insertEdge ⟨called, .caller, parse⟩)
  let _ ← StoreProgram.call (.insertEdge ⟨called, .callees, main⟩)
  let _ ← StoreProgram.call (.markNodes [parse])

/-- The second round of the closure of calls meets the symbol that was marked from the start. -/
theorem propagate_terminates_callCycle :
    let s := (callCycle.run.run Database.store {}).2
    ∃ closings rounds report s',
      Propagates Database.store converging s closings rounds (.ok report) s' ∧
      (propagate converging).run.run Database.store s = (.ok report, s') ∧
      report.stages.head? = some ⟨.allReachingSymbols, 1, 2⟩ ∧ report.rounds = 1 ∧
        rounds = 1 := by
  intro s
  have sound : Medium.database.view.sound s := Medium.database.sound_of_few _ (by decide +kernel)
  have reported : ((propagate converging).run.run Database.store s).1.toOption.map
      (fun report => (report.stages.head?, report.rounds)) =
        some (some ⟨.allReachingSymbols, 1, 2⟩, 1) := by decide +kernel
  obtain ⟨closings, rounds, x, s', propagates, ran, -, -, succeeds⟩ :=
    propagate_terminates .database sound converging
  obtain ⟨report, rfl, number⟩ := succeeds converging_inTime
  change (propagate converging).run.run Database.store s = _ at ran
  rw [ran] at reported
  obtain ⟨first, one⟩ := Prod.ext_iff.mp (Option.some.inj reported)
  exact ⟨closings, rounds, report, s', propagates, ran, first, one, number.symm.trans one⟩

end BlastRadius.Propagation
