import BlastRadius.Proofs.Propagation.Repetition
import BlastRadius.Proofs.Propagation.RoundByRound
import BlastRadius.Proofs.Store.Issuing
import BlastRadius.Proofs.Store.Traces

/-!
Propagations one of whose calls fails. The failure names the stage that made the call, and the marks
that were made before it stay: what is left is the state in which the call was made.
-/

namespace BlastRadius

def Call.marksNodes : Call → Bool
  | markNodes _ => true
  | _ => false

/-- A call as propagations make them: it reads, or it marks nodes. -/
def Call.Spreads (q : Call) : Prop := q.reads = true ∨ q.marksNodes = true

open Contents

namespace Propagation

variable {σ : Type} {store : Store σ} {config : PropagationConfig}

/-- The calls of a stage, under its name. -/
def issuedByStage (store : Store σ) (late : Stage → Nat → Bool) (stage : Stage) (s : σ) :
    List (Option Stage × Call) :=
  ((execute late stage).run.calls store s).map fun q => (some stage, q)

def issuedByStages (store : Store σ) (late : Stage → Nat → Bool) :
    List Stage → σ → List (Option Stage × Call)
  | [], _ => []
  | stage :: rest, s => issuedByStage store late stage s ++
      onSuccess ((execute late stage).run.run store s) fun _ s' =>
        issuedByStages store late rest s'

/-- The calls of the rounds of the stages after the closure of calls. -/
def issuedByRounds (store : Store σ) (config : PropagationConfig) :
    Nat → Nat → σ → List (Option Stage × Call)
  | 0, _, _ => []
  | fuel + 1, round, s => issuedByStages store (config.late round) Stage.downstream s ++
      onSuccess ((runStages (config.late round) round Stage.downstream).run.run store s)
        fun reports s' =>
        if config.converge && StageReport.total reports != 0 then
          issuedByRounds store config fuel (round + 1) s'
        else []

/-- The calls that count the marks belong to no stage. -/
def issuedByCount (store : Store σ) (s : σ) : List (Option Stage × Call) :=
  ((ImpactProgram.ofStore StoreProgram.countMarked).run.calls store s).map fun q => (none, q)

/-- The calls of a propagation without faults, in their order, each with the stage that makes it. -/
def issued (store : Store σ) (config : PropagationConfig) (s : σ) : List (Option Stage × Call) :=
  issuedByStage store (config.late 1) .allReachingSymbols s ++
    onSuccess ((execute (config.late 1) .allReachingSymbols).run.run store s) fun _ s₁ =>
      issuedByRounds store config (NodeId.count + 1) 1 s₁ ++
        onSuccess ((runRounds config (NodeId.count + 1) 1).run.run store s₁) fun _ s₂ =>
          issuedByCount store s₂

/-- The error of a propagation when a call of this stage, or of none, fails. -/
def failure : Option Stage → StoreError → ImpactError
  | some stage => .stageFailed stage
  | none => .store

theorem stages_stops (store : Store σ) :
    Stages (fun _ (p : StoreProgram _) => Stops store id p)
      fun _ (p : StageProgram _) => Stops store Interrupt.store p where
  pure := .pure
  bind := .bind
  read _ := .call _
  value := .pure
  stop := .throw
  follow := .bind
  reading := .mapError Interrupt.store
  marking ids := .mapError Interrupt.store (.call (.markNodes ids))

theorem stops_execute (store : Store σ) (late : Stage → Nat → Bool) (stage : Stage) :
    Stops store (failure (some stage)) (execute late stage) :=
  ((stages_stops store).pass (late stage) stage).mapError (Interrupt.inStage stage)

theorem stops_countMarked (store : Store σ) :
    Stops store (failure none) (ImpactProgram.ofStore StoreProgram.countMarked) :=
  Stops.mapError ImpactError.store (stages_stops store).countMarked

/-- A call with the error that its failure leads to. -/
def failing (call : Option Stage × Call) : Call × (StoreError → ImpactError) :=
  (call.2, failure call.1)

theorem failsAs_execute (store : Store σ) (late : Stage → Nat → Bool)
    (stage : Stage) (s : σ) :
    FailsAs store (execute late stage) s ((issuedByStage store late stage s).map failing) := by
  rw [issuedByStage, List.map_map]
  exact stops_execute store late stage s

theorem failsAs_runStages (store : Store σ) (late : Stage → Nat → Bool) (round : Nat)
    (stages : List Stage) (s : σ) : FailsAs store (runStages late round stages) s
      ((issuedByStages store late stages s).map failing) := by
  induction stages generalizing s with
  | nil => exact .pure []
  | cons stage rest ih =>
      rw [issuedByStages, List.map_append, map_onSuccess]
      exact (failsAs_execute store late stage s).bind fun _ s' _ => (ih s').map _

theorem failsAs_runRounds (store : Store σ) (config : PropagationConfig)
    (fuel round : Nat) (s : σ) :
    FailsAs store (runRounds config fuel round) s
      ((issuedByRounds store config fuel round s).map failing) := by
  induction fuel generalizing round s with
  | zero => exact .pure _
  | succ fuel ih =>
      rw [issuedByRounds, List.map_append, map_onSuccess]
      refine (failsAs_runStages store (config.late round) round _ s).bind fun reports s' _ => ?_
      split
      · exact (ih (round + 1) s').map _
      · exact .pure _

theorem failsAs_propagate (store : Store σ) (config : PropagationConfig) (s : σ) :
    FailsAs store (propagate config) s ((issued store config s).map failing) := by
  rw [issued, List.map_append, map_onSuccess]
  refine (failsAs_execute store (config.late 1) _ s).bind fun newly s₁ _ => ?_
  rw [List.map_append, map_onSuccess]
  refine (failsAs_runRounds store config _ 1 s₁).bind fun later s₂ _ => ?_
  refine FailsAs.map _ ?_
  rw [issuedByCount, List.map_map]
  exact stops_countMarked store s₂

theorem propagate_each (config : PropagationConfig) :
    EachStep Call.Spreads (fun _ _ => False) (propagate config) :=
  EachStep.propagate (C := Call.Spreads) Or.inl (fun _ => Or.inr rfl) config

theorem propagate_only (config : PropagationConfig) :
    (propagate config).run.Only fun q => q.marks = true :=
  Program.only_iff_each.mpr (EachStep.propagate (C := fun q => q.marks = true)
    (fun {q} reads => by cases q <;> first | exact reads | rfl) (fun _ => rfl) config)

theorem after_filter (tidy : store.Tidy) {calls : List Call}
    (each : ∀ q ∈ calls, q.Spreads) (s : σ) :
    store.after (calls.filter Call.marksNodes) s = store.after calls s := by
  induction calls generalizing s with
  | nil => rfl
  | cons q rest ih =>
      obtain ⟨first, each⟩ := List.forall_mem_cons.mp each
      by_cases marks : q.marksNodes = true
      · rw [List.filter_cons_of_pos marks]
        exact ih each _
      · have idle : (store.call q s).2 = s := tidy.read s (first.resolve_right marks)
        rw [List.filter_cons_of_neg marks, ih each]
        exact (congrArg (store.after rest) idle).symm

/-- When a call of a propagation fails, the propagation fails with the error and the stage that
made the call. It leaves what the calls that mark nodes left among those before. No node, edge
or level changes. -/
theorem propagate_fails_at_call (medium : Medium) (config : PropagationConfig) (s : medium.State)
    {k : Nat} {stage : Option Stage} {q : Call}
    (here : (issued medium.store config s)[k]? = some (stage, q))
    {script : Nat → Option StoreError} {error : StoreError} (before : ∀ i < k, script i = none)
    (fails : script k = some error) :
    let calls := (propagate config).run.calls medium.store s
    let stopped := (propagate config).run.run (Scripted.store medium.store) ⟨s, script, 0⟩
    (issued medium.store config s).map Prod.snd = calls ∧
    stopped.1 = .error (failure stage error) ∧
    stopped.2.inner = medium.store.after (calls.take k) s ∧
    stopped.2.inner = medium.store.after ((calls.take k).filter Call.marksNodes) s ∧
    medium.view.opened stopped.2.inner = medium.view.opened s ∧
    (medium.view.sound s →
      SameGraph (medium.view.holds s) (medium.view.holds stopped.2.inner)) := by
  intro calls stopped
  have fails' := failsAs_propagate medium.store config s
  have listed : (issued medium.store config s).map Prod.snd = calls := by
    rw [show calls = _ from fails'.calls_eq, List.map_map]
    rfl
  have entry : ((issued medium.store config s).map failing)[k]? = some (q, failure stage) := by
    rw [List.getElem?_map, here]
    rfl
  obtain ⟨answer, left⟩ := fails'.run_of_fault entry before fails
  have effects (q : Call) (mem : q ∈ calls.take k) : q.Spreads :=
    Program.Each.calls (propagate_each config) s q (List.mem_of_mem_take mem)
  have keeps := (Scripted.respects medium.faithful keptByMarks).run (propagate_only config)
    (⟨s, script, 0⟩ : Scripted medium.State)
  exact ⟨listed, answer, left, left.trans (after_filter medium.tidy effects s).symm, keeps.opened,
    fun sound => (keeps.holds sound).2⟩

/-- The call that marks the libraries fails: what the first stage marked stays. -/
theorem propagate_fails_at_call_threatened :
    let marking : StoreProgram Unit := do
      threatened
      let _ ← StoreProgram.call (.markNodes [⟨1⟩])
    let s : Medium.database.State := (marking.run.run Database.store {}).2
    let script (position : Nat) := if position = 10 then some (.unavailable "busy") else none
    ∃ t, (propagate converging).run.run (Scripted.store Medium.database.store)
      ⟨s, script, 0⟩ =
        (.error (.stageFailed .allProvidingLibraries (.unavailable "busy")), t) ∧
      t.inner = Medium.database.store.after [.markNodes [⟨4⟩, ⟨5⟩]] s ∧
      SameGraph (Medium.database.view.holds s) (Medium.database.view.holds t.inner) := by
  intro marking s script
  have sound : Medium.database.view.sound s := Medium.database.sound_of_few _ (by decide +kernel)
  have here : (issued Medium.database.store converging s)[10]? =
      some (some .allProvidingLibraries, .markNodes [⟨3⟩]) := by decide +kernel
  have marks : (((propagate converging).run.calls Medium.database.store s).take 10).filter
      Call.marksNodes =
      [.markNodes [⟨4⟩, ⟨5⟩]] := by decide +kernel
  have before : ∀ i < 10, script i = none := fun i less => if_neg (Nat.ne_of_lt less)
  have fails : script 10 = some (.unavailable "busy") := if_pos rfl
  obtain ⟨-, answer, -, left, -, same⟩ :=
    propagate_fails_at_call .database converging s here before fails
  rcases ran : (propagate converging).run.run (Scripted.store Medium.database.store)
    ⟨s, script, 0⟩
    with ⟨x, t⟩
  rw [ran] at answer left same
  rw [marks] at left
  exact ⟨t, congrArg (·, t) answer, left, same sound⟩

end Propagation

end BlastRadius
