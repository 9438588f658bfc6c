import BlastRadius.Proofs.Propagation.Termination

/-!
Each stage marks everything that it can in one run. The rules of a stage are in such an order that
none reaches what it or an earlier one starts from, so a second run finds nothing; and as no stage
after the closure of calls reaches a symbol or a record of a call, the closure of calls stays
complete whatever the others mark.
-/

namespace BlastRadius

namespace Contents

variable {c : Contents}

/-- Rules of which none reaches what it or an earlier one starts from have reached everything after
one sweep. -/
theorem Valid.reach_sweep (valid : c.Valid) {rules : List Rule}
    (own : ∀ rule ∈ rules, rule.anchor ∉ rule.kinds)
    (forward : rules.Pairwise fun rule later => rule.anchor ∉ later.kinds) :
    ∀ rule ∈ rules, (c.sweep rules).reach (c.sweep rules).marked rule ⊆
      (c.sweep rules).marked := by
  induction rules generalizing c with
  | nil => exact fun _ mem => absurd mem List.not_mem_nil
  | cons first rest ih =>
      obtain ⟨ahead, forward⟩ := List.pairwise_cons.mp forward
      intro rule mem
      rcases List.mem_cons.mp mem with rfl | mem
      · have other : ∀ later ∈ rule :: rest, rule.anchor ∉ later.kinds := by
          intro later mem
          rcases List.mem_cons.mp mem with rfl | mem
          · exact own later List.mem_cons_self
          · exact ahead later mem
        obtain ⟨ids, swept⟩ := exists_sweep (c := c) (rule :: rest)
        -- No rule of the sweep reaches what this one starts from, so it reads the
        -- same after the sweep.
        have start : c.among (c.sweep (rule :: rest)).marked rule.anchor =
            c.among c.marked rule.anchor := by
          rw [← valid.among_sweep other, swept]
          rfl
        have read : (c.sweep (rule :: rest)).reach (c.sweep (rule :: rest)).marked rule =
            c.reach c.marked rule := by
          rw [← reach_congr start, swept, reach_mark]
        rw [read, sweep_cons]
        exact Set.subset_union_right.trans (subset_sweep (c := c.spread rule) rest)
      · exact ih (valid.mark (reach_subset_live valid))
          (fun later mem => own later (List.mem_cons_of_mem first mem)) forward rule mem

theorem Valid.sweep_again (valid : c.Valid) (stage : Stage) :
    (c.sweep stage.rules).sweep stage.rules = c.sweep stage.rules :=
  sweep_of_reach (valid.reach_sweep stage.rules_forward.1 stage.rules_forward.2)

theorem Valid.sweep_kinds (valid : c.Valid) {rules : List Rule}
    (staged : ∀ rule ∈ rules, ∃ stage : Stage, rule ∈ stage.rules) {x : NodeId}
    (new : x ∈ (c.sweep rules).marked \ c.marked) :
    x ∉ c.ofKind .symbol ∧ x ∉ c.ofKind .callGraphDependency := by
  obtain ⟨ids, swept⟩ := exists_sweep (c := c) rules
  have old {kind : NodeKind} (other : ∀ rule ∈ rules, kind ∉ rule.kinds) :
      x ∉ c.ofKind kind := by
    intro own
    have same := valid.among_sweep other
    rw [swept] at same new
    exact new.2 (same.subset ⟨new.1, own⟩).1
  constructor
  · apply old
    intro rule mem
    obtain ⟨stage, mem⟩ := staged rule mem
    exact (stage.rules_kinds rule mem).1
  · apply old
    intro rule mem
    obtain ⟨stage, mem⟩ := staged rule mem
    exact (stage.rules_kinds rule mem).2

/-- The contents after a stage. -/
def passed (c : Contents) : Stage → Contents
  | .allReachingSymbols => Propagation.called c
  | stage => c.sweep stage.rules

end Contents

namespace Propagation

variable {c : Contents}

theorem passed_downstream {stage : Stage} (mem : stage ∈ Stage.downstream) :
    c.passed stage = c.sweep stage.rules := by
  cases stage with
  | allReachingSymbols => exact absurd mem (by decide)
  | _ => rfl

theorem downstream_of_ne {stage : Stage} (other : stage ≠ .allReachingSymbols) :
    stage ∈ Stage.downstream := by
  cases stage with
  | allReachingSymbols => exact absurd rfl other
  | _ => decide

theorem leads_runStage (valid : c.Valid) (stage : Stage) : Leads (runStage stage).run c
    (.ok ((c.passed stage).marked \ c.marked).ncard) (c.passed stage) := by
  by_cases first : stage = .allReachingSymbols
  · subst first
    have count : (c.passed .allReachingSymbols).marked \ c.marked =
        c.callClosure (c.among c.marked .symbol) \ c.marked := Set.union_sdiff_left
    rw [count]
    exact leads_calls valid
  · have mem := downstream_of_ne first
    rw [passed_downstream mem]
    exact leads_execute (leads_pass valid mem)

theorem exists_passed (c : Contents) (stage : Stage) : ∃ ids, c.passed stage = c.mark ids := by
  cases stage with
  | allReachingSymbols => exact ⟨_, rfl⟩
  | _ => exact Contents.exists_sweep _

theorem passed_again (valid : c.Valid) (stage : Stage) :
    (c.passed stage).passed stage = c.passed stage := by
  by_cases first : stage = .allReachingSymbols
  · subst first
    exact called_of_callersMarked (callersMarked_called valid)
  · simp only [passed_downstream (downstream_of_ne first)]
    exact valid.sweep_again stage

theorem leads_runStage_idle (valid : c.Valid) {stage : Stage} (complete : c.passed stage = c) :
    Leads (runStage stage).run c (.ok 0) c := by
  have ran := leads_runStage valid stage
  rwa [complete, Set.sdiff_self, Set.ncard_empty] at ran

theorem leads_calls_idle (valid : c.Valid) (complete : c.CallersMarked) :
    Leads (runStage .allReachingSymbols).run c (.ok 0) c :=
  have same : c.passed .allReachingSymbols = c := called_of_callersMarked complete
  leads_runStage_idle valid same

/-- What a stage did that ran between two states, and what it leaves to be done. -/
structure StageOutcome (medium : Medium) (stage : Stage) (s s' : medium.State) (newly : Nat) :
    Prop where
  nodes : (medium.view.holds s').node? = (medium.view.holds s).node?
  edges : (medium.view.holds s').edges = (medium.view.holds s).edges
  kept : (medium.view.holds s).marked ⊆ (medium.view.holds s').marked
  counted : newly = ((medium.view.holds s').marked \ (medium.view.holds s).marked).ncard
  /-- A second run of the stage marks nothing. -/
  again : ∃ s₂, (runStage stage).run.run medium.store s' = (.ok 0, s₂) ∧
    medium.view.holds s₂ = medium.view.holds s'
  /-- Only the closure of calls marks symbols and records of calls. -/
  kinds : stage ≠ .allReachingSymbols →
    ∀ id ∈ (medium.view.holds s').marked \ (medium.view.holds s).marked,
      id ∉ (medium.view.holds s).ofKind .symbol ∧
        id ∉ (medium.view.holds s).ofKind .callGraphDependency
  /-- After the closure of calls and any of the other stages, the closure of calls marks nothing. -/
  complete : stage = .allReachingSymbols → ∀ (stages : List Stage) (round : Nat),
    .allReachingSymbols ∉ stages → ∃ reports s₂ s₃,
      (runStages timeless round stages).run.run medium.store s' = (.ok reports, s₂) ∧
      (runStage .allReachingSymbols).run.run medium.store s₂ = (.ok 0, s₃) ∧
      medium.view.holds s₃ = medium.view.holds s₂

/-- The closure of calls stays complete while the other stages run. -/
theorem stages_after_calls (medium : Medium) {s : medium.State} (sound : medium.view.sound s)
    (complete : (medium.view.holds s).CallersMarked) (round : Nat) {stages : List Stage}
    (others : .allReachingSymbols ∉ stages) : ∃ reports s₂ s₃,
      (runStages timeless round stages).run.run medium.store s = (.ok reports, s₂) ∧
      (runStage .allReachingSymbols).run.run medium.store s₂ = (.ok 0, s₃) ∧
      medium.view.holds s₃ = medium.view.holds s₂ := by
  have valid := medium.valid_of_sound sound
  have sub : stages ⊆ Stage.downstream := by
    intro stage mem
    exact downstream_of_ne fun same => others (same ▸ mem)
  obtain ⟨s₂, ran, holds, sound₂⟩ :=
    medium.run_of_leads sound (leads_runStages round sub valid)
  have complete₂ : (medium.view.holds s₂).CallersMarked := by
    rw [holds]
    exact complete.sweep valid (staged_rules stages)
  obtain ⟨s₃, ran₃, holds₃, _⟩ := medium.run_of_leads sound₂
    (leads_calls_idle (medium.valid_of_sound sound₂) complete₂)
  exact ⟨_, s₂, s₃, ran, ran₃, holds₃⟩

/-- A stage without a deadline succeeds. It only adds marks and counts them, a second run of it
marks nothing, and the closure of calls marks nothing after any of the other stages either. -/
theorem stages_idempotent (medium : Medium) {s : medium.State} (sound : medium.view.sound s)
    (stage : Stage) : ∃ newly s', (runStage stage).run.run medium.store s = (.ok newly, s') ∧
      StageOutcome medium stage s s' newly := by
  have valid := medium.valid_of_sound sound
  obtain ⟨s', ran, holds, sound'⟩ := medium.run_of_leads sound (leads_runStage valid stage)
  have valid' := medium.valid_of_sound sound'
  obtain ⟨ids, marks⟩ := exists_passed (medium.view.holds s) stage
  refine ⟨_, s', ran,
    { nodes := by rw [holds, marks]; rfl
      edges := by rw [holds, marks]; rfl
      kept := ?_, counted := by rw [holds], again := ?_, kinds := fun other => ?_
      complete := fun first stages round others => ?_ }⟩
  · rw [holds, marks]
    exact Set.subset_union_left
  · have idle : (medium.view.holds s').passed stage = medium.view.holds s' := by
      rw [holds]
      exact passed_again valid stage
    obtain ⟨s₂, ran₂, holds₂, _⟩ :=
      medium.run_of_leads sound' (leads_runStage_idle valid' idle)
    exact ⟨s₂, ran₂, holds₂⟩
  · rw [holds, passed_downstream (downstream_of_ne other)]
    intro id new
    exact valid.sweep_kinds (fun rule mem => ⟨stage, mem⟩) new
  · subst first
    apply stages_after_calls medium sound' _ round others
    rw [holds]
    exact callersMarked_called valid

/-- A marked symbol, and a binding of the library that provides it to a component and an asset. -/
def bound : StoreProgram Unit := do
  threatened
  let component ← StoreProgram.call (.insertNode (.component ⟨"reader", "2.0"⟩))
  let asset ← StoreProgram.call (.insertNode (.asset ⟨"host", "1.0"⟩))
  let binding ← StoreProgram.call (.insertNode .binding)
  let _ ← StoreProgram.call (.insertEdge ⟨binding, .specializesInto, ⟨3⟩⟩)
  let _ ← StoreProgram.call (.insertEdge ⟨binding, .specializesInto, component⟩)
  let _ ← StoreProgram.call (.insertEdge ⟨binding, .specializesInto, asset⟩)
  let _ ← StoreProgram.call (.markNodes [⟨1⟩])

/-- The library is marked first, which leads to the binding and the nodes beside the library. -/
theorem stages_idempotent_bound :
    let s : Medium.database.State := (bound.run.run Database.store {}).2
    ∃ s', (runStage .allProvidingLibraries).run.run Database.store s = (.ok 4, s') ∧
      StageOutcome .database .allProvidingLibraries s s' 4 := by
  intro s
  have sound : Medium.database.view.sound s := Medium.database.sound_of_few _ (by decide +kernel)
  have four : ((runStage .allProvidingLibraries).run.run Database.store s).1.toOption = some 4 := by
    decide +kernel
  obtain ⟨newly, s', ran, outcome⟩ := stages_idempotent .database sound .allProvidingLibraries
  change (runStage .allProvidingLibraries).run.run Database.store s = _ at ran
  rw [ran] at four
  obtain rfl : newly = 4 := Option.some.inj four
  exact ⟨s', ran, outcome⟩

end Propagation

end BlastRadius
