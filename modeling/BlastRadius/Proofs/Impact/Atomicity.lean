import BlastRadius.Proofs.Propagation.Marking
import BlastRadius.Proofs.Store.Traces

/-!
Operations that write in a single block. They look up what they need before it and write
nothing after it, so one that fails leaves no trace, whichever of its requests was the one to
fail. A registration whose symbol is missing fails only after its block was committed, but such
a block has written nothing.
-/

namespace BlastRadius

/-- Whether all that an operation writes is written in one block. -/
def Operation.inOneBlock : Operation → Bool
  | upsertLibrary _ _ | upsertEndpoint _ | createBinding _ | createVulnerability _ _ | seed _
  | resetKinds _ | resetDomain _ => true
  | _ => false

variable {σ τ ε α β : Type}

/-- Whenever a program fails, it leaves the state behind as it was. -/
abbrev Spares (front : Store τ) (base : τ → σ) (p : ExceptT ε Program α) : Prop :=
  Leaves base (FailsOr fun _ => False) (p.run.run front)

theorem Spares.map {front : Store τ} {base : τ → σ} {p : ExceptT ε Program α}
    (spares : Spares front base p) (f : α → β) : Spares front base (f <$> p) := by
  intro t
  have same := spares t
  rw [Program.run_map]
  rcases ran : p.run.run front t with ⟨error | value, t'⟩
  · rw [ran] at same
    exact fun _ => same (failsOr_error _ error)
  · intro ends
    exact absurd rfl (ends (f value))

theorem run_ofStore_atomically (front : Store τ) (body : StoreProgram β) (t : τ) :
    (ImpactProgram.ofStore (StoreProgram.atomically body)).run.run front t =
      ((front.atomically (body.run.run front) t).1.mapError ImpactError.store,
        (front.atomically (body.run.run front) t).2) := rfl

namespace Store.Shelters

open Inventory

variable {front : Store τ} {base : τ → σ} (shelters : front.Shelters base)
include shelters

/-- A block, and nothing to be done after it. The operation fails only when the block does, or with
a value for which it has changed nothing. -/
theorem after_block {body : StoreProgram β} {P : β → Prop} {next : β → ImpactProgram α}
    (idle : Leaves base (fun result => ∃ value, result = .ok value ∧ P value)
      (body.run.run front))
    (finish : ∀ value, ∃ result, (next value).run = Program.done result ∧
      ((∃ error, result = .error error) → P value)) :
    Spares front base (ImpactProgram.ofStore (StoreProgram.atomically body) >>= next) := by
  intro t
  have block := shelters.atomically idle t
  rw [ExceptT.run_bind, Program.run_bind, run_ofStore_atomically]
  rcases ran : front.atomically (body.run.run front) t with ⟨error | value, t'⟩
  · rw [ran] at block
    exact fun _ => block (failsOr_error P error)
  · rw [ran] at block
    obtain ⟨result, done, success⟩ := finish value
    change FailsOr _ ((next value).run.run front t').1 →
        base ((next value).run.run front t').2 = base t
    rw [done]
    intro ends
    apply block
    rintro _ ⟨⟩
    rcases result with error | value
    · exact success ⟨error, rfl⟩
    · exact absurd rfl (ends value)

theorem written (body : StoreProgram β) (answer : β → α) :
    Spares front base (do
      let value ← ImpactProgram.ofStore (StoreProgram.atomically body)
      return answer value) := by
  apply shelters.after_block (P := fun _ => False)
  · rintro t ⟨_, _, impossible⟩
    exact impossible.elim
  · intro value
    exact ⟨.ok (answer value), rfl, by rintro ⟨_, ⟨⟩⟩⟩

theorem block (body : StoreProgram β) :
    Spares front base (ImpactProgram.ofStore (StoreProgram.atomically body)) := by
  have spares := shelters.written body id
  rwa [show (fun value => pure (id value) : β → ImpactProgram β) = pure from rfl,
    bind_pure] at spares

theorem upsertLibrary (artifact : Artifact) (symbols : List String) :
    Spares front base (Inventory.upsertLibrary artifact symbols) := by
  apply shelters.after_reading (.require _ _)
  intro _
  apply shelters.after_reading (.require _ _)
  intro _
  exact shelters.block _

theorem upsertEndpoint (endpoint : EndpointRef) :
    Spares front base (Inventory.upsertEndpoint endpoint) := by
  apply shelters.after_reading (.require _ _)
  intro _
  apply shelters.after_reading (.findAs id _ _)
  intro owner
  exact shelters.block _

theorem registering_idle (identity : Option String) (symbol : String) :
    Leaves base (fun result => ∃ value, result = .ok value ∧ value = none)
      ((registering identity symbol).run.run front) := by
  apply shelters.after_reading (.findVulnerability id _)
  rintro (_ | existing)
  · apply shelters.after_reading (onlyReads_call rfl)
    rintro (_ | target)
    · exact fun _ _ => rfl
    · rintro t ⟨_, answer, rfl⟩
      rw [Program.run_map] at answer
      generalize ((insertVulnerability identity target).run.run front t).1 = ended at answer
      rcases ended with error | registration
      · cases answer
      · cases answer
  · exact fun _ _ => rfl

theorem createVulnerability (identity : Option String) (symbol : String) :
    Spares front base (Inventory.createVulnerability identity symbol) := by
  apply shelters.after_block (shelters.registering_idle (normalized identity) symbol)
  rintro (_ | registration)
  · exact ⟨_, rfl, fun _ => rfl⟩
  · exact ⟨.ok registration, rfl, by rintro ⟨_, ⟨⟩⟩⟩

theorem seed (identity : Option String) : Spares front base (Inventory.seed identity) := by
  apply shelters.after_reading (EachStep.findVulnerability id _).ofStore
  rintro (_ | vulnerability)
  · exact fun _ _ => rfl
  · apply shelters.after_reading (onlyReads_call rfl).ofStore
    rintro (_ | ⟨symbol, rest⟩)
    · exact fun _ _ => rfl
    · exact shelters.written (seeding symbol) _

theorem resetKinds (kinds : List NodeKind) : Spares front base (Query.resetKinds kinds) :=
  shelters.written (Query.removing (Query.withEndpoints kinds)) _

theorem perform {operation : Operation} (single : operation.inOneBlock = true) :
    Spares front base operation.perform := by
  cases operation with
  | upsertLibrary artifact symbols => exact (shelters.upsertLibrary artifact symbols).map _
  | upsertEndpoint endpoint => exact (shelters.upsertEndpoint endpoint).map _
  | createBinding request => exact (shelters.block (recording request)).map _
  | createVulnerability identity symbol =>
      exact (shelters.createVulnerability identity symbol).map _
  | seed identity => exact (shelters.seed identity).map _
  | resetKinds kinds => exact (shelters.resetKinds kinds).map _
  | resetDomain domain => exact (shelters.resetKinds domain.kinds).map _
  | _ => cases single

end Store.Shelters

namespace Operation

variable {operation : Operation}

theorem failed_leaves {front : Store τ} {base : τ → σ} (shelters : front.Shelters base)
    (single : operation.inOneBlock = true) (t : τ) {error : ImpactError}
    (failed : (operation.on front t).1 = .error error) :
      base (operation.on front t).2 = base t := by
  apply shelters.perform single t
  change FailsOr _ (operation.on front t).1
  rw [failed]
  exact failsOr_error _ error

/-- An operation that writes in a single block and fails has changed nothing, whichever requests the
script makes fail, with whatever errors, and whether or not the store tries again. -/
theorem failed_changes_nothing (medium : Medium) (policy : RetryPolicy)
    (script : Nat → Option StoreError) (s : medium.State) (operation : Operation)
    (single : operation.inOneBlock = true) :
    let once := operation.on (Scripted.store medium.store) ⟨s, script, 0⟩
    let retried := operation.on (Retrying.store policy (Scripted.store medium.store))
      ⟨⟨s, script, 0⟩, 0⟩
    (∀ error, once.1 = .error error → once.2.inner = s) ∧
    ∀ error, retried.1 = .error error → retried.2.inner.inner = s ∧ retried.2.depth = 0 := by
  intro once retried
  have laws := medium.faithful.toTransactional
  constructor
  · intro error failed
    exact failed_leaves (Scripted.shelters laws medium.tidy) single _ failed
  · intro error failed
    have levels := (Retrying.keeps_depth policy (Scripted.store medium.store)).run
      operation.perform.run.only_true ⟨⟨s, script, 0⟩, 0⟩
    exact ⟨failed_leaves (Retrying.shelters laws medium.tidy policy) single _ failed, levels⟩

/-- The last write of a registration fails, and then the commit of the second attempt. -/
theorem failed_changes_nothing_of_registration :
    let operation : Operation := .createVulnerability none "parse"
    let s := ((Operation.upsertLibrary ⟨"parser", "1.0"⟩ ["parse"]).on Medium.database.store
      Medium.database.initial).2
    let script (position : Nat) : Option StoreError :=
      if position = 5 then some (.unavailable "busy")
      else if position = 12 then some .noTransaction else none
    let once := operation.on (Scripted.store Medium.database.store) ⟨s, script, 0⟩
    let retried := operation.on (Retrying.store {} (Scripted.store Medium.database.store))
      ⟨⟨s, script, 0⟩, 0⟩
    once.1.isOk = false ∧ once.2.position = 6 ∧ once.2.inner = s ∧
    retried.1.isOk = false ∧ retried.2.inner.position = 13 ∧ retried.2.inner.inner = s ∧
    retried.2.depth = 0 := by
  intro operation s script once retried
  have cut : once.1.isOk = false := by decide +kernel
  have exhausted : retried.1.isOk = false := by decide +kernel
  have requests : once.2.position = 6 := by decide +kernel
  have requests' : retried.2.inner.position = 13 := by decide +kernel
  have single : operation.inOneBlock = true := rfl
  clear_value operation s script
  obtain ⟨first, second⟩ : (∀ error, once.1 = .error error → once.2.inner = s) ∧
      ∀ error, retried.1 = .error error → retried.2.inner.inner = s ∧ retried.2.depth = 0 :=
    failed_changes_nothing .database {} script s operation single
  clear_value once retried
  have unchanged : once.2.inner = s := by
    rcases once with ⟨error | value, t⟩
    · exact first error rfl
    · cases cut
  rcases retried with ⟨error | value, t⟩
  · obtain ⟨same, closed⟩ := second error rfl
    exact ⟨cut, requests, unchanged, exhausted, requests', same, closed⟩
  · cases exhausted

end Operation

end BlastRadius
