import BlastRadius.Proofs.Propagation.SinglePass

/-!
A converging propagation ends with the least closed set that contains the marks of the closure of
calls. So it does not matter in which order the stages after the closure of calls are driven. No
stage marks anything afterwards: none of their rules reaches a symbol, so the closure of calls has
nothing to do either.
-/

namespace BlastRadius

namespace Contents

variable {c : Contents}

/-- The rules reach no symbol, so a closure has no other symbols than what it starts from. -/
theorem Valid.among_closure_symbol (valid : c.Valid) (ids : Set NodeId) :
    c.among (c.closure ids) .symbol = c.among ids .symbol := by
  have least := c.isLeast_closure ids
  have sub : c.closure ids ⊆ c.closure ids ∩ {x | x ∈ c.ofKind .symbol → x ∈ ids} := by
    refine least.2 ⟨fun x mem => ⟨least.1.1 mem, fun _ => mem⟩,
      fun stage rule mem x reached => ?_⟩
    have inside : x ∈ c.closure ids :=
      least.1.2 stage rule mem (reach_mono Set.inter_subset_left rule reached)
    exact ⟨inside, fun symbol => absurd symbol (reach_live valid mem reached).2⟩
  ext x
  exact ⟨fun mem => ⟨(sub mem.1).2 mem.2, mem.2⟩, fun mem => ⟨least.1.1 mem.1, mem.2⟩⟩

theorem callers_within (ids : Set NodeId) :
    c.callers {s | ∃ n, s ∈ c.within ids n} ⊆ {s | ∃ n, s ∈ c.within ids n} := by
  rintro s ⟨r, t, ⟨n, mem⟩, calls⟩
  exact ⟨n + 1, Or.inr ⟨r, t, mem, calls⟩⟩

/-- A sweep over enough rounds ends with the closure, whatever the order of the stages in each. -/
theorem closed_sweep_orders {orders : List (List Stage)}
    (enough : c.markedᶜ.ncard < orders.length)
    (full : ∀ order ∈ orders, Stage.downstream ⊆ order) :
    (c.sweep (orders.flatten.flatMap Stage.rules)).Closed
      (c.sweep (orders.flatten.flatMap Stage.rules)).marked := by
  induction orders generalizing c with
  | nil => exact absurd enough (Nat.not_lt_zero _)
  | cons order rest ih =>
      rw [List.flatten_cons, List.flatMap_append, sweep_append]
      have all (stage : Stage) : stage.rules ⊆ order.flatMap Stage.rules := by
        intro rule mem
        obtain ⟨stage', here, mem⟩ := List.mem_flatMap.mp (Stage.rules_subset stage mem)
        exact List.mem_flatMap.mpr ⟨stage', full order List.mem_cons_self here, mem⟩
      -- A round that adds no mark has come to the closure; any other leaves fewer nodes without a
      -- mark.
      by_cases stable : (c.sweep (order.flatMap Stage.rules)).marked ⊆ c.marked
      · have closed := closed_of_sweep all stable
        rw [sweep_of_closed closed (Propagation.staged_rules _),
          sweep_of_closed closed (Propagation.staged_rules _)]
        exact closed
      · refine ih ?_ fun later mem => full later (List.mem_cons_of_mem order mem)
        have less : (c.sweep (order.flatMap Stage.rules)).markedᶜ.ncard < c.markedᶜ.ncard :=
          Set.ncard_lt_ncard ⟨Set.compl_subset_compl.mpr (subset_sweep _),
            fun sub => stable (Set.compl_subset_compl.mp sub)⟩
        rw [List.length_cons] at enough
        omega

theorem closed_of_stages (idle : ∀ stage ∈ Stage.downstream,
    (c.sweep stage.rules).marked ⊆ c.marked) :
    c.Closed c.marked := by
  intro stage rule mem
  cases stage with
  | allReachingSymbols => exact absurd mem List.not_mem_nil
  | _ => exact reach_subset_of_sweep (idle _ (by decide)) rule mem

theorem sweep_eq_mark_closure {stages : List Stage}
    (closed : (c.sweep (stages.flatMap Stage.rules)).Closed
      (c.sweep (stages.flatMap Stage.rules)).marked) :
    c.sweep (stages.flatMap Stage.rules) = c.mark (c.closure c.marked) := by
  rw [← mark_closure_sweep (Propagation.staged_rules _), closure_of_closed closed,
    mark_of_subset subset_rfl]

end Contents

namespace Propagation

variable {c : Contents}

theorem among_called (valid : c.Valid) : c.among (called c).marked .symbol =
    {s | ∃ n, s ∈ c.within (c.among c.marked .symbol) n} := by
  ext s
  constructor
  · rintro ⟨marked | ⟨n, within | record⟩, symbol⟩
    · exact ⟨0, marked, symbol⟩
    · exact ⟨n, within⟩
    · exact absurd symbol (Contents.not_mem_ofKind_of_ne (valid.incoming_record _ record)
        NodeKind.noConfusion)
  · rintro ⟨n, within⟩
    exact ⟨Or.inr ⟨n, Or.inl within⟩, valid.within_symbol Set.inter_subset_right n within⟩

theorem leads_runStage_settled (valid : c.Valid) (closed : c.Closed c.marked)
    (complete : c.callers (c.among c.marked .symbol) ⊆ c.among c.marked .symbol) (stage : Stage) :
    Leads (runStage stage).run c (.ok 0) c := by
  by_cases downstream : stage ∈ Stage.downstream
  · have passed := leads_execute (leads_pass valid downstream)
    have same : c.sweep stage.rules = c :=
      Contents.sweep_of_closed closed fun rule mem => ⟨stage, mem⟩
    have none : gain c stage.rules = 0 := gain_eq_zero.mpr (by rw [same])
    rwa [none, same] at passed
  · have first : stage = .allReachingSymbols := by
      cases stage with
      | allReachingSymbols => rfl
      | _ => exact absurd (by decide) downstream
    have sub : c.among c.marked .symbol ⊆ c.marked := Set.inter_subset_left
    have passed := leads_calls valid
    rw [called, Contents.callClosure_of_closed complete, Contents.mark_of_subset sub,
      Set.sdiff_eq_empty.mpr sub, Set.ncard_empty] at passed
    rw [first]
    exact passed

/-- The contents with which a converging propagation ends. -/
def converged (c : Contents) : Contents := (called c).mark ((called c).closure (called c).marked)

theorem converged_marked (c : Contents) :
    (converged c).marked = (called c).closure (called c).marked :=
  Set.union_eq_right.mpr ((called c).isLeast_closure _).1.1

theorem converged_valid (valid : c.Valid) : (converged c).Valid :=
  (called_valid valid).mark (called_valid valid).closure_live

theorem converged_closed (c : Contents) : (converged c).Closed (converged c).marked := by
  rw [converged_marked, converged, Contents.closed_mark]
  exact ((called c).isLeast_closure _).1.2

theorem leads_runStage_converged (valid : c.Valid) (stage : Stage) :
    Leads (runStage stage).run (converged c) (.ok 0) (converged c) := by
  refine leads_runStage_settled (converged_valid valid) (converged_closed c) ?_ stage
  have symbols : (converged c).among (converged c).marked .symbol =
      {s | ∃ n, s ∈ c.within (c.among c.marked .symbol) n} := by
    rw [converged_marked, ← among_called valid]
    exact (called_valid valid).among_closure_symbol _
  rw [symbols]
  exact c.callers_within _

/-- Between a state that the closure of calls left and one in which no stage has anything to do,
the marks grew to the least closed set; every way to drive the other stages leads to the same. -/
structure FixedPoint (medium : Medium) (s₁ s₂ : medium.State) : Prop where
  nodes : (medium.view.holds s₂).node? = (medium.view.holds s₁).node?
  edges : (medium.view.holds s₂).edges = (medium.view.holds s₁).edges
  least : IsLeast {t | (medium.view.holds s₁).marked ⊆ t ∧ (medium.view.holds s₁).Closed t}
    (medium.view.holds s₂).marked
  /-- No stage marks anything afterwards. -/
  settled : ∀ stage, ∃ s₃, (runStage stage).run.run medium.store s₂ = (.ok 0, s₃) ∧
    medium.view.holds s₃ = medium.view.holds s₂
  /-- Stages in any order and number that end where each marks nothing end with the same marks. -/
  driven : ∀ stages ⊆ Stage.downstream, ∃ reports s₃,
    (runStages timeless 1 stages).run.run medium.store s₁ = (.ok reports, s₃) ∧
      ((∀ stage ∈ Stage.downstream, ((runStage stage).run.run medium.store s₃).1.toOption =
        some 0) →
        medium.view.holds s₃ = medium.view.holds s₂)
  /-- More rounds than there are identifiers, each in any order, are enough. -/
  rounds : ∀ orders : List (List Stage), NodeId.count < orders.length →
    (∀ order ∈ orders, order ⊆ Stage.downstream ∧ Stage.downstream ⊆ order) →
      ∃ reports s₃,
      (runStages timeless 1 orders.flatten).run.run medium.store s₁ = (.ok reports, s₃) ∧
        medium.view.holds s₃ = medium.view.holds s₂

/-- A converging propagation without a deadline succeeds, and ends with the least set that contains
the marks of the closure of calls and is closed under the rules of the other stages. -/
theorem propagate_converge_least (medium : Medium) {s : medium.State}
    (sound : medium.view.sound s) :
    ∃ newly s₁ report s₂,
      (runStage .allReachingSymbols).run.run medium.store s = (.ok newly, s₁) ∧
      (propagate { converge := true, deadlineMs := none }).run.run medium.store s =
        (.ok report, s₂) ∧
      FixedPoint medium s₁ s₂ := by
  have valid := medium.valid_of_sound sound
  obtain ⟨s₁, ran₁, holds₁, sound₁⟩ := medium.run_of_leads sound (leads_calls valid)
  have converges : PropagationConfig.converge { converge := true, deadlineMs := none } = true := rfl
  obtain ⟨report, propagated⟩ :=
    leads_propagate_converge valid converges (PropagationConfig.inTime_of_untimed rfl)
  obtain ⟨s₂, ran₂, holds₂, sound₂⟩ := medium.run_of_leads sound propagated
  refine ⟨_, s₁, report, s₂, ran₁, ran₂, ?_⟩
  change medium.view.holds s₂ = converged (medium.view.holds s) at holds₂
  have valid₁ := called_valid valid
  refine
    { nodes := by rw [holds₁, holds₂]; rfl
      edges := by rw [holds₁, holds₂]; rfl
      least := ?_, settled := fun stage => ?_, driven := fun stages sub => ?_
      rounds := fun orders enough orderly => ?_ }
  · rw [holds₁, holds₂, converged_marked]
    exact (called (medium.view.holds s)).isLeast_closure _
  · have idle := leads_runStage_converged valid stage
    rw [← holds₂] at idle
    obtain ⟨s₃, ran, holds, _⟩ := medium.run_of_leads sound₂ idle
    exact ⟨s₃, ran, holds⟩
  · have swept := leads_runStages 1 sub valid₁
    have valid₃ := valid₁.sweep (staged_rules stages)
    rw [← holds₁] at swept
    obtain ⟨s₃, ran, holds₃, sound₃⟩ := medium.run_of_leads sound₁ swept
    refine ⟨_, s₃, ran, fun stable => ?_⟩
    rw [holds₃, holds₂, holds₁]
    refine Contents.sweep_eq_mark_closure (Contents.closed_of_stages fun stage mem => ?_)
    have passed := leads_execute (leads_pass valid₃ mem)
    rw [← holds₁, ← holds₃] at passed
    obtain ⟨s₄, ran₄, _⟩ := medium.run_of_leads sound₃ passed
    have idle := stable stage mem
    rw [runStage, ran₄, holds₃, holds₁] at idle
    exact gain_eq_zero.mp (Option.some.inj idle)
  · have sub : orders.flatten ⊆ Stage.downstream := by
      intro stage mem
      obtain ⟨order, here, mem⟩ := List.mem_flatten.mp mem
      exact (orderly order here).1 mem
    have swept := leads_runStages 1 sub valid₁
    rw [← holds₁] at swept
    obtain ⟨s₃, ran, holds₃, _⟩ := medium.run_of_leads sound₁ swept
    refine ⟨_, s₃, ran, ?_⟩
    rw [holds₃, holds₂, holds₁]
    refine Contents.sweep_eq_mark_closure (Contents.closed_sweep_orders ?_ fun order mem =>
      (orderly order mem).2)
    exact (NodeId.ncard_le _).trans_lt enough

theorem propagate_converge_least_threatened :
    let s := (threatened.run.run Database.store {}).2
    ∃ newly s₁ report s₂,
      (runStage .allReachingSymbols).run.run Database.store s = (.ok newly, s₁) ∧
      (propagate { converge := true, deadlineMs := none }).run.run Database.store s =
        (.ok report, s₂) ∧
      FixedPoint .database s₁ s₂ :=
  propagate_converge_least .database (Medium.database.sound_of_few _ (by decide +kernel))

end Propagation

end BlastRadius
