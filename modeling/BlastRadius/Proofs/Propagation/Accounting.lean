import BlastRadius.Proofs.Propagation.Ingestion
import BlastRadius.Proofs.Propagation.Radius
import BlastRadius.Proofs.Propagation.RoundByRound

/-!
The reports of propagations account for every mark. Each count is the number of marks that are new,
so that the counts of the stages and the marks before them add up to the marks after them.
-/

namespace BlastRadius

/-- What the stages after the closure of calls reported of a round. -/
def PropagationReport.ofRound (report : PropagationReport) (round : Nat) : List StageReport :=
  report.stages.tail.filter fun r => r.round == round

namespace Propagation

variable {c : Contents} {config : PropagationConfig} {identity : Option String}

/-- A report accounts for the marks of the state in which a propagation ends, when so many
nodes were marked before. -/
structure Accounts (medium : Medium) (config : PropagationConfig) (before : Nat)
    (report : PropagationReport) (s' : medium.State) : Prop where
  total : report.totalMarked = before + StageReport.total report.stages
  /-- The blast radius right after has the same total and shows what is marked. -/
  radius : ∃ radius t, Query.radius.run.run medium.store s' = (.ok radius, t) ∧
    medium.view.holds t = medium.view.holds s' ∧ radius.total = report.totalMarked ∧
    radius.Shows (medium.view.holds s')
  /-- The closure of calls comes first, then in each round every other stage. -/
  order : report.stages.map (fun r => (r.stage, r.round)) = (.allReachingSymbols, 1) ::
    (List.range' 1 report.rounds).flatMap fun round => Stage.downstream.map fun stage =>
      (stage, round)
  once : config.converge = false → report.rounds = 1
  /-- A converging propagation stops after the first round that marks nothing. -/
  stable : config.converge = true → ∀ r ∈ report.ofRound report.rounds, r.newlyMarked = 0
  unstable : config.converge = true → ∀ round, 1 ≤ round → round < report.rounds →
    ∃ r ∈ report.ofRound round, 0 < r.newlyMarked

theorem total_append (reports reports' : List StageReport) :
    StageReport.total (reports ++ reports') =
    StageReport.total reports + StageReport.total reports' := by
  induction reports with
  | nil => exact (Nat.zero_add _).symm
  | cons first rest ih =>
      change first.newlyMarked + StageReport.total (rest ++ reports') = _
      rw [ih, ← Nat.add_assoc]
      rfl

theorem total_eq_zero {reports : List StageReport} :
    StageReport.total reports = 0 ↔ ∀ r ∈ reports, r.newlyMarked = 0 := by
  induction reports with
  | nil => simp [StageReport.total]
  | cons first rest ih =>
      change first.newlyMarked + StageReport.total rest = 0 ↔ _
      rw [Nat.add_eq_zero_iff, ih, List.forall_mem_cons]

theorem ncard_add_gain (c : Contents) (rules : List Rule) :
    c.marked.ncard + gain c rules = (c.sweep rules).marked.ncard := by
  rw [gain, Nat.add_comm]
  exact Set.ncard_sdiff_add_ncard_of_subset (Contents.subset_sweep rules)

theorem ncard_add_callGain (c : Contents) :
    c.marked.ncard + callGain c = (called c).marked.ncard := by
  rw [callGain, called, Contents.mark_marked, ← Set.union_sdiff_left, Nat.add_comm]
  exact Set.ncard_sdiff_add_ncard_of_subset Set.subset_union_left

noncomputable def reportsOfRounds (c : Contents) (n : Nat) : List StageReport :=
  (List.range n).flatMap fun i => reportsOf (1 + i) Stage.downstream (c.rounds i)

theorem reportsOfRounds_succ (c : Contents) (n : Nat) : reportsOfRounds c (n + 1) =
    reportsOfRounds c n ++ reportsOf (1 + n) Stage.downstream (c.rounds n) := by
  rw [reportsOfRounds, List.range_succ, List.flatMap_append, List.flatMap_singleton]
  rfl

theorem ncard_add_total (c : Contents) (n : Nat) :
    c.marked.ncard + StageReport.total (reportsOfRounds c n) = (c.rounds n).marked.ncard := by
  induction n with
  | zero => rfl
  | succ n ih =>
      have step : StageReport.total (reportsOf (1 + n) Stage.downstream (c.rounds n)) =
          gain (c.rounds n) Stage.roundRules := total_reportsOf _ _ _
      rw [reportsOfRounds_succ, total_append, ← Nat.add_assoc, ih, step, ncard_add_gain]
      rfl

theorem order_reportsOf (round : Nat) (stages : List Stage) (c : Contents) :
    (reportsOf round stages c).map (fun r => (r.stage, r.round)) =
      stages.map fun stage => (stage, round) := by
  induction stages generalizing c with
  | nil => rfl
  | cons stage rest ih => rw [reportsOf, List.map_cons, ih, List.map_cons]

theorem order_reportsOfRounds (c : Contents) (n : Nat) :
    (reportsOfRounds c n).map (fun r => (r.stage, r.round)) = (List.range' 1 n).flatMap fun round =>
      Stage.downstream.map fun stage => (stage, round) := by
  rw [reportsOfRounds, List.map_flatMap, List.range'_eq_map_range, List.flatMap_map]
  simp only [order_reportsOf]

theorem round_of_mem {round : Nat} {stages : List Stage} {r : StageReport}
    (mem : r ∈ reportsOf round stages c) : r.round = round := by
  have listed : (r.stage, r.round) ∈ (reportsOf round stages c).map
      (fun r => (r.stage, r.round)) :=
    List.mem_map_of_mem mem
  rw [order_reportsOf] at listed
  obtain ⟨_, _, same⟩ := List.mem_map.mp listed
  exact (congrArg Prod.snd same).symm

theorem mem_reportsOfRounds {n i : Nat} {r : StageReport} (round : r.round = 1 + i) :
    r ∈ reportsOfRounds c n ↔ i < n ∧ r ∈ reportsOf (1 + i) Stage.downstream
      (c.rounds i) := by
  rw [reportsOfRounds, List.mem_flatMap]
  constructor
  · rintro ⟨j, less, mem⟩
    obtain rfl : i = j := Nat.add_left_cancel (round.symm.trans (round_of_mem mem))
    exact ⟨List.mem_range.mp less, mem⟩
  · rintro ⟨less, mem⟩
    exact ⟨i, List.mem_range.mpr less, mem⟩

/-- What a report says of a propagation from some contents with so many rounds. -/
structure Reports (config : PropagationConfig) (c : Contents) (n : Nat)
    (report : PropagationReport) :
    Prop where
  last : LastRound config (called c) n
  rounds : report.rounds = n + 1
  stages : report.stages =
    ⟨.allReachingSymbols, 1, callGain c⟩ :: reportsOfRounds (called c) (n + 1)
  total : report.totalMarked = ((called c).rounds (n + 1)).marked.ncard

theorem exists_leads_reports (valid : c.Valid) (now : config.InTime) : ∃ n report,
    Reports config c n report ∧
      Leads (propagate config).run c (.ok report) ((called c).rounds (n + 1)) := by
  have valid' := called_valid valid
  obtain ⟨n, last, later⟩ :=
    leads_runRounds valid' now (Nat.lt_succ_of_le (NodeId.ncard_le _)) 1
  exact ⟨n, _, ⟨last, Nat.add_comm 1 n, rfl, rfl⟩,
    leads_propagate valid (valid'.rounds _) now later⟩

theorem Reports.accounts (medium : Medium) {s' : medium.State} (sound' : medium.view.sound s')
    {n : Nat} {report : PropagationReport} (reports : Reports config c n report)
    (holds : medium.view.holds s' = (called c).rounds (n + 1)) :
    Accounts medium config c.marked.ncard report s' := by
  obtain ⟨last, rounds, stages, total⟩ := reports
  have ofRound {i : Nat} {r : StageReport} : r ∈ report.ofRound (1 + i) ↔
      i < n + 1 ∧ r ∈ reportsOf (1 + i) Stage.downstream ((called c).rounds i) := by
    rw [PropagationReport.ofRound, stages, List.tail_cons, List.mem_filter, beq_iff_eq]
    constructor
    · exact fun ⟨mem, round⟩ => (mem_reportsOfRounds round).mp mem
    · exact fun here => ⟨(mem_reportsOfRounds (round_of_mem here.2)).mpr here,
        round_of_mem here.2⟩
  have gained (i : Nat) :
      StageReport.total (reportsOf (1 + i) Stage.downstream ((called c).rounds i)) =
      gain ((called c).rounds i) Stage.roundRules := total_reportsOf _ _ _
  refine { total := ?_, radius := ?_, order := ?_, once := ?_, stable := ?_, unstable := ?_ }
  · rw [total, stages, ← ncard_add_total, ← ncard_add_callGain, Nat.add_assoc]
    rfl
  · have valid := medium.valid_of_sound sound'
    obtain ⟨t, ran, same, -⟩ := medium.run_of_leads sound' (leads_radius valid)
    refine ⟨_, t, ran, same, ?_, valid.radius_shows⟩
    rw [valid.radius_shows.total, holds, total]
  · rw [stages, List.map_cons, order_reportsOfRounds, rounds]
  · exact fun once => rounds.trans (congrArg (· + 1) (last.once once))
  · intro converge r mem
    rw [rounds, Nat.add_comm, ofRound] at mem
    exact total_eq_zero.mp ((gained n).trans (last.stable converge)) r mem.2
  · intro _ round positive less
    obtain ⟨i, rfl⟩ := Nat.exists_eq_add_of_le positive
    have earlier : i < n := by omega
    have some := last.unstable i earlier
    rw [← gained, Ne, total_eq_zero] at some
    obtain ⟨r, some⟩ := not_forall.mp some
    obtain ⟨mem, positive⟩ := Classical.not_imp.mp some
    exact ⟨r, ofRound.mpr ⟨by omega, mem⟩, Nat.pos_of_ne_zero positive⟩

/-- Every success of a propagation without a deadline accounts for the marks, those that it was
given or the one that it seeded, and so does the blast radius after it. -/
theorem reports_account (medium : Medium) {s : medium.State} (sound : medium.view.sound s)
    (unlimited : config.deadlineMs = none) :
    (∀ report s', (propagate config).run.run medium.store s = (.ok report, s') →
      Accounts medium config (medium.view.holds s).marked.ncard report s') ∧
    ∀ identity report s', (run config identity).run.run medium.store s = (.ok report, s') →
      Accounts medium config 1 report s' := by
  have valid := medium.valid_of_sound sound
  have now := PropagationConfig.inTime_of_untimed unlimited
  constructor
  · intro report s' ran
    obtain ⟨n, report', reports, leads⟩ := exists_leads_reports valid now
    obtain ⟨t, ran', holds, sound'⟩ := medium.run_of_leads sound leads
    cases ran.symm.trans ran'
    exact reports.accounts medium sound' holds
  · intro identity report s' ran
    obtain ⟨v, g, leastV, leastG⟩ := seeded_of_run medium sound ran
    have live := Set.singleton_subset_iff.mpr
      (Contents.ofKind_subset_live _ (valid.threatened leastG.1))
    have one : ((medium.view.holds s).unmarked.mark {g}).marked.ncard = 1 := by
      rw [Contents.mark_marked]
      exact (congrArg Set.ncard (Set.empty_union _)).trans (Set.ncard_singleton g)
    obtain ⟨n, report', reports, leads⟩ := exists_leads_reports (valid.unmarked.mark live) now
    have seeded := leads_run_seeded valid leastV leastG leads
    obtain ⟨t, ran', holds, sound'⟩ := medium.run_of_leads sound seeded
    cases ran.symm.trans ran'
    rw [← one]
    exact Reports.accounts medium sound' ⟨reports.last, reports.rounds, reports.stages,
      reports.total⟩
      holds

/-- A propagation from a given mark, and a seeded one. -/
theorem reports_account_threatened :
    let marking : StoreProgram Unit := do
      threatened
      let _ ← StoreProgram.call (.markNodes [⟨1⟩])
    let s := (marking.run.run Database.store {}).2
    (∃ report s', (propagate converging).run.run Database.store s = (.ok report, s') ∧
      Accounts .database converging (Database.view.holds s).marked.ncard report s') ∧
    ∃ report s', (run converging none).run.run Database.store s = (.ok report, s') ∧
      Accounts .database converging 1 report s' := by
  intro marking s
  have sound : Medium.database.view.sound s := Medium.database.sound_of_few _ (by decide +kernel)
  have propagates : ((propagate converging).run.run Database.store s).1.isOk = true := by
      decide +kernel
  have seeds : ((run converging none).run.run Database.store s).1.isOk = true := by decide +kernel
  obtain ⟨given, seeded⟩ := reports_account .database sound (rfl : converging.deadlineMs = none)
  constructor
  · rcases ran : (propagate converging).run.run Database.store s with ⟨error | report, s'⟩
    · rw [ran] at propagates
      cases propagates
    · exact ⟨report, s', rfl, given report s' ran⟩
  · rcases ran : (run converging none).run.run Database.store s with ⟨error | report, s'⟩
    · rw [ran] at seeds
      cases seeds
    · exact ⟨report, s', rfl, seeded none report s' ran⟩

end Propagation

end BlastRadius
