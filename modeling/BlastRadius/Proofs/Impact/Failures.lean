import BlastRadius.Impact.Operation

/-!
The errors with which an operation can end, whatever the store answers. Only an operation that tries
its targets one by one reports that some of them failed, and it reports how many targets it had.
-/

namespace BlastRadius

variable {σ ε δ α β τ : Type}

/-- Whatever is answered to its calls and blocks, a program ends as `P` says. -/
def Program.Answers : {α : Type} → (α → Prop) → Program α → Prop
  | _, P, done value => P value
  | _, P, call _ next => ∀ r, (next r).Answers P
  | _, P, atomically _ next => ∀ r, (next r).Answers P

namespace Program

variable {P : α → Prop} {Q : β → Prop} {p : Program α}

theorem answers_of_forall (always : ∀ x, P x) : p.Answers P := by
  induction p with
  | done value => exact always value
  | call _ _ ih => exact fun r => ih r always
  | atomically _ _ _ ih => exact fun r => ih r always

theorem Answers.mono {R : α → Prop} (answers : p.Answers P) (weaker : ∀ x, P x → R x) :
    p.Answers R := by
  induction p with
  | done value => exact weaker value answers
  | call _ _ ih => exact fun r => ih r (answers r) weaker
  | atomically _ _ _ ih => exact fun r => ih r (answers r) weaker

theorem Answers.bind {f : α → Program β} (first : p.Answers P)
    (rest : ∀ x, P x → (f x).Answers Q) :
    (p >>= f).Answers Q := by
  change (p.bind f).Answers Q
  induction p with
  | done value => exact rest value first
  | call _ _ ih => exact fun r => ih r (first r) rest
  | atomically _ _ _ ih => exact fun r => ih r (first r) rest

theorem Answers.run (answers : p.Answers P) (store : Store σ) (s : σ) : P (p.run store s).1 := by
  induction p generalizing s with
  | done value => exact answers
  | call _ _ ih => exact ih _ (answers _) _
  | atomically _ _ _ ih => exact ih _ (answers _) _

end Program

/-- Whatever is answered, a program that stops at an error ends with a value as `V` says or
an error as `E` says. -/
def Gives (V : α → Prop) (E : ε → Prop) (p : ExceptT ε Program α) : Prop :=
  p.run.Answers fun
    | .ok value => V value
    | .error error => E error

/-- Whatever is answered, a program fails only as `E` says. -/
abbrev Fails (E : ε → Prop) (p : ExceptT ε Program α) : Prop := Gives (fun _ => True) E p

namespace Gives

variable {V : α → Prop} {W : β → Prop} {E : ε → Prop} {p : ExceptT ε Program α}

theorem pure {value : α} (wanted : V value) : Gives V E (pure value : ExceptT ε Program α) :=
  wanted

theorem bind {f : α → ExceptT ε Program β} (first : Gives V E p)
    (rest : ∀ value, V value → Gives W E (f value)) : Gives W E (p >>= f) := by
  rw [Gives, ExceptT.run_bind]
  refine Program.Answers.bind first fun x holds => ?_
  cases x with
  | ok value => exact rest value holds
  | error error => exact holds

theorem map {f : α → β} (fails : Fails E p) : Fails E (f <$> p) := by
  rw [map_eq_pure_bind]
  exact fails.bind fun _ _ => pure trivial

theorem mapError {f : δ → ε} {p : ExceptT δ Program α} (always : ∀ error, E (f error)) :
    Fails E (ExceptT.mk ((fun result => result.mapError f) <$> p.run)) := by
  rw [Fails, Gives, ExceptT.run_mk, map_eq_pure_bind]
  refine Program.Answers.bind (P := fun _ => True) (Program.answers_of_forall fun _ => trivial) ?_
  rintro (error | value) _
  · exact always error
  · trivial

theorem attempt {E : ImpactError → Prop} {p : ImpactProgram α} :
    Fails E (ImpactProgram.attempt p) := by
  rw [Fails, Gives, ImpactProgram.attempt, ExceptT.run_mk, map_eq_pure_bind]
  exact Program.Answers.bind (P := fun _ => True) (Program.answers_of_forall fun _ => trivial)
    fun _ _ => trivial

theorem error_of_failed (gives : Gives V E p) {store : Store σ} {s : σ} {error : ε}
    (failed : (p.run.run store s).1 = .error error) : E error := by
  have answered := Program.Answers.run gives store s
  rwa [failed] at answered

theorem collect {E : ImpactError → Prop} {describe : τ → String}
    {act : τ → ImpactProgram α}
    {outcomes : Outcomes α} {targets : List τ} :
    Gives (fun final => final.attempted = outcomes.attempted + targets.length) E
      (ImpactProgram.collect describe act outcomes targets) := by
  induction targets generalizing outcomes with
  | nil => exact pure rfl
  | cons target rest ih =>
      refine bind attempt fun result _ => ?_
      have one : (outcomes.record (describe target) result).attempted = outcomes.attempted + 1 := by
        cases result <;> simp [Outcomes.record, Outcomes.attempted] <;> omega
      have later := @ih (outcomes.record (describe target) result)
      rwa [one, Nat.add_assoc, Nat.add_comm 1] at later

end Gives

namespace ImpactError

/-- How many targets there were, if an error is about some of them. -/
def attempted? : ImpactError → Option Nat
  | partialFailure attempted _ => some attempted
  | _ => none

/-- Whether an error is about some of so many targets, or not about targets at all. -/
def Counts (targets : Option Nat) (error : ImpactError) : Prop :=
  ∀ n, error.attempted? = some n → targets = some n

end ImpactError

/-- How many targets an operation has that it tries one by one. -/
def Operation.targets? : Operation → Option Nat
  | upsertSystem _ components => some components.length
  | addCalls _ called => some called.length
  | addNetworkCalls _ called => some called.length
  | _ => none

namespace Gives

open ImpactError (Counts)

variable {n : Option Nat}

theorem ofStore {p : StoreProgram α} : Fails (Counts n) (ImpactProgram.ofStore p) :=
  mapError fun _ => nofun

theorem require {holds : Bool} {reason : String} :
    Fails (Counts n) (ImpactProgram.require holds reason) := by
  cases holds with
  | true => trivial
  | false => exact nofun

theorem findAs {key : NodeKey} {shown : String} :
    Fails (Counts n) (ImpactProgram.findAs key shown) := by
  refine ofStore.bind fun found _ => ?_
  cases found with
  | some id => trivial
  | none => exact nofun

theorem ofResult {outcomes : Outcomes α} :
    Fails (Counts (some outcomes.attempted)) (ImpactProgram.ofResult outcomes.result) := by
  obtain ⟨successes, failures⟩ := outcomes
  cases failures with
  | nil => trivial
  | cons failure rest =>
      rintro n ⟨⟩
      rfl

theorem execute {late : Stage → Nat → Bool} {stage : Stage} :
    Fails (Counts n) (Propagation.execute late stage) := by
  refine mapError fun interrupt => ?_
  cases interrupt <;> exact nofun

theorem runStages {late : Stage → Nat → Bool} {round : Nat} {stages : List Stage} :
    Fails (Counts n) (Propagation.runStages late round stages) := by
  induction stages with
  | nil => trivial
  | cons stage rest ih => exact execute.bind fun _ _ => ih.bind fun _ _ => pure trivial

theorem runRounds {config : PropagationConfig} {fuel round : Nat} :
    Fails (Counts n) (Propagation.runRounds config fuel round) := by
  induction fuel generalizing round with
  | zero => trivial
  | succ fuel ih =>
      refine runStages.bind fun reports _ => ?_
      split
      · exact ih.bind fun _ _ => pure trivial
      · trivial

theorem propagate {config : PropagationConfig} : Fails (Counts n) (Propagation.propagate config) :=
  execute.bind fun _ _ => runRounds.bind fun _ _ => ofStore.bind fun _ _ => pure trivial

theorem seed {identity : Option String} : Fails (Counts n) (Inventory.seed identity) := by
  refine ofStore.bind fun found _ => ?_
  cases found with
  | none => exact nofun
  | some id =>
      refine ofStore.bind fun targets _ => ?_
      cases targets with
      | nil => exact nofun
      | cons symbol rest => exact ofStore.bind fun _ _ => pure trivial

theorem merged {node : Node} {holds : Bool} {reason : String} : Fails (Counts n) (do
    ImpactProgram.require holds reason
    ImpactProgram.ofStore (Inventory.mergedId node)) :=
  require.bind fun _ _ => ofStore

theorem createVulnerability {identity : Option String} {symbol : String} :
    Fails (Counts n) (Inventory.createVulnerability identity symbol) := by
  refine ofStore.bind fun registered _ => ?_
  cases registered with
  | some registration => trivial
  | none => exact nofun

theorem upsertEndpoint {endpoint : EndpointRef} :
    Fails (Counts n) (Inventory.upsertEndpoint endpoint) :=
  require.bind fun _ _ => findAs.bind fun _ _ => ofStore

theorem findEndpoint {endpoint : EndpointRef} :
    Fails (Counts n) (Inventory.findEndpoint endpoint) :=
  findAs.bind fun _ _ => findAs

theorem linkOutcomes {net : CallNetwork} {caller : NodeId} {outcomes : Outcomes NodeId} :
    Fails (Counts (some outcomes.attempted)) (Inventory.linkOutcomes net caller outcomes) :=
  ofStore.bind fun _ _ => ofResult.bind fun _ _ => pure trivial

theorem collect_then {describe : τ → String} {act : τ → ImpactProgram α} {targets : List τ}
    {next : Outcomes α → ImpactProgram β}
    (rest : ∀ outcomes, Fails (Counts (some outcomes.attempted)) (next outcomes)) :
    Fails (Counts (some targets.length))
      (ImpactProgram.collect describe act {} targets >>= next) := by
  refine collect.bind fun outcomes all => ?_
  have same : outcomes.attempted = targets.length := all.trans (Nat.zero_add _)
  exact same ▸ rest outcomes

end Gives

namespace Operation

/-- An operation on some targets fails for them only with their number. -/
theorem counts (operation : Operation) (single : ∀ fixture, operation ≠ .loadFixture fixture) :
    Fails (ImpactError.Counts operation.targets?) operation.perform := by
  cases operation with
  | upsertLibrary artifact symbols =>
      exact .map (.bind .require fun _ _ => .bind .require fun _ _ => .ofStore)
  | upsertSymbol identity => exact .map .merged
  | addCalls caller called =>
      exact .map (.bind .findAs fun _ _ => .collect_then fun _ => .linkOutcomes)
  | upsertComponent artifact => exact .map .merged
  | upsertAsset artifact => exact .map .merged
  | hostComponent guest host =>
      exact .map (.bind .findAs fun _ _ => .bind .findAs fun _ _ => .ofStore)
  | upsertSystem name parts =>
      exact .map (.bind .require fun _ _ => .bind .ofStore fun _ _ =>
        .collect_then fun _ => .bind .ofResult fun _ _ => .pure trivial)
  | upsertEndpoint endpoint => exact .map .upsertEndpoint
  | findEndpoint endpoint => exact .map .findEndpoint
  | addNetworkCalls caller called =>
      exact .map (.bind .upsertEndpoint fun _ _ => .collect_then fun _ => .linkOutcomes)
  | addServes endpoint symbol =>
      exact .map (.bind .findEndpoint fun _ _ => .bind .findAs fun _ _ => .ofStore)
  | createBinding request => exact .map .ofStore
  | createVulnerability identity symbol => exact .map .createVulnerability
  | loadFixture fixture => exact absurd rfl (single fixture)
  | seed identity => exact .map .seed
  | run config identity =>
      exact .map (.bind .seed fun _ _ => .bind .propagate fun _ _ => .pure trivial)
  | propagate config => exact .map .propagate
  | runStage stage => exact .map .execute
  | marked kind => exact .map .ofStore
  | radius => exact .map (.bind .ofStore fun _ _ => .pure trivial)
  | library artifact => exact .map (.bind .findAs fun _ _ => .ofStore)
  | component artifact => exact .map (.bind .findAs fun _ _ => .ofStore)
  | callees symbol => exact .map (.bind .findAs fun _ _ => .ofStore)
  | flowchart => exact .map (.bind .ofStore fun _ _ => .pure trivial)
  | resetMarks => exact .map .ofStore
  | reset => exact .map .ofStore
  | resetKinds kinds => exact .map (.bind .ofStore fun _ _ => .pure trivial)
  | resetDomain domain => exact .map (.bind .ofStore fun _ _ => .pure trivial)

theorem attempted_eq_targets {operation : Operation}
    (single : ∀ fixture, operation ≠ .loadFixture fixture) {store : Store σ} {s : σ}
    {error : ImpactError} (failed : (operation.on store s).1 = .error error) {n : Nat}
    (partly : error.attempted? = some n) : operation.targets? = some n :=
  (operation.counts single).error_of_failed failed n partly

end Operation

end BlastRadius
