import BlastRadius.Proofs.Impact.Traversal
import BlastRadius.Proofs.Store.Calm

/-!
Operations on a store that tries again. The blocks of operations hand on the transient failures of
their calls, so that faults which the retries can make up for are not seen.
-/

namespace BlastRadius

variable {α β : Type}

theorem Program.Relays.bind {p : Program β} {next : β → Program α} {stops : β → Bool}
    {fails : α → Bool} (first : p.Relays stops)
    (stopped : ∀ x, stops x = true → ∃ y, next x = .done y ∧ fails y = true)
    (rest : ∀ x, stops x = false → (next x).Relays fails) : (p >>= next).Relays fails := by
  change (p.bind next).Relays fails
  induction p with
  | done value => exact rest value first
  | call q after ih =>
      constructor
      · intro r failed
        obtain ⟨x, ended, failure⟩ := first.1 r failed
        obtain ⟨y, same, failure⟩ := stopped x failure
        exact ⟨y, (congrArg (Program.bind · next) ended).trans same, failure⟩
      · intro r final
        exact ih r (first.2 r final) stopped rest
  | atomically body after _ _ => exact first.elim

namespace StoreProgram

/-- A program that stops with the transient failures of its calls and has no others. -/
def Relays (p : StoreProgram α) : Prop := p.run.Relays transient

theorem Relays.call (q : Call) : Relays (call q) :=
  ⟨fun r failed => ⟨r, rfl, failed⟩, fun _ final => final⟩

theorem Relays.bind {p : StoreProgram β} {next : β → StoreProgram α} (first : Relays p)
    (rest : ∀ value, Relays (next value)) : Relays (p >>= next) := by
  rw [Relays, ExceptT.run_bind]
  apply Program.Relays.bind first
  · rintro (error | value) failed
    · exact ⟨.error error, rfl, failed⟩
    · cases failed
  · rintro (error | value) final
    · exact final
    · exact rest value

theorem transient_of_unique {error : StoreError} (unique : error.isUniqueViolation = true) :
    error.isTransient = false := by
  cases error <;> first | rfl | cases unique

theorem Relays.mergeNode (node : Node) : Relays (mergeNode node) := by
  have insertion : Relays (do
      let id ← StoreProgram.call (.insertNode node)
      return (id, true)) := (Relays.call _).bind fun _ => rfl
  rw [StoreProgram.mergeNode]
  split
  · exact insertion
  · apply (Relays.call _).bind
    rintro (_ | known)
    · refine Program.Relays.bind (p := ExceptT.run (do
        let id ← StoreProgram.call (.insertNode node)
        return (id, true))) insertion ?_ ?_
      · rintro (error | value) failed
        · have other : error.isUniqueViolation = false := by
            rcases unique : error.isUniqueViolation with _ | _
            · rfl
            · exact absurd ((transient_of_unique unique).symm.trans failed) Bool.false_ne_true
          refine ⟨.error error, ?_, failed⟩
          change ite (error.isUniqueViolation = true) (_ : StoreProgram _) (_ : StoreProgram _) = _
          rw [other]
          rfl
        · cases failed
      · rintro (error | value) final
        · change Relays (ite (error.isUniqueViolation = true) (_ : StoreProgram _)
            (_ : StoreProgram _))
          split
          · apply (Relays.call _).bind
            rintro (_ | found)
            · exact final
            · rfl
          · exact final
        · rfl
    · rfl

theorem Relays.composes : Composes fun _ (p : StoreProgram _) => Relays p where
  pure _ := rfl
  bind first rest := first.bind rest
  merge _ _ := .mergeNode _

end StoreProgram

open StoreProgram (Relays)

theorem allows_relays : AllowsOperations (fun _ => True) fun _ body => body.Relays transient where
  call _ := trivial
  node _ := trivial
  edge _ := trivial
  seeding _ := Relays.composes.seeding (.call _) fun _ => .call _
  providing _ _ := Relays.composes.providing (fun _ => .call _) (fun _ => .call _)
    (fun _ => .call _)
    fun _ _ => .call _
  linking _ _ _ _ := Relays.composes.linking (fun _ => .call _) (.call _) (fun _ => .call _)
    fun _ _ => .call _
  exposing _ _ := Relays.composes.exposing (fun _ => .call _) (.call _) fun _ => .call _
  recording _ := Relays.composes.recording (fun _ => .call _) (.call _) fun _ _ => .call _
  registering _ _ := Relays.composes.registering (fun _ => .call _) (fun _ => .call _) (.call _)
    fun _ _ => .call _

namespace Operation

theorem relays (operation : Operation) :
    operation.perform.run.Each (fun _ => True) fun _ body => body.Relays transient := by
  have removing : (Query.removing operation.removed).Relays :=
    Relays.composes.removing fun _ _ => .call _
  exact allows_relays.perform operation removing fun _ => trivial

/-- Without faults an operation does on a store that tries again what it does on
the store behind. -/
theorem on_retrying (medium : Medium) (policy : RetryPolicy) (operation : Operation)
    (t : Retrying medium.State) : operation.on (Retrying.store policy medium.store) t =
      Retrying.around t.depth (operation.on medium.store t.inner) :=
  Program.run_calm medium.calm policy medium.faithful.once operation.relays t

/-- Faults are not seen by an operation on a store that tries again, as long as they are transient
and there are no more of them than retries: it has the answer and leaves the state that it has and
leaves without faults, and no level is left open. -/
theorem faults_unseen (medium : Medium) (policy : RetryPolicy) {script : Nat → Option StoreError}
    (worth : ∀ k error, script k = some error → error.isTransient = true)
    (few : {k | (script k).isSome}.encard ≤ policy.maxRetries) {s : medium.State}
    (closed : medium.view.opened s = []) (operation : Operation) :
    let outcome := operation.on (Retrying.store policy (Scripted.store medium.store))
      ⟨⟨s, script, 0⟩, 0⟩
    outcome.1 = (operation.on medium.store s).1 ∧
      outcome.2.inner.inner = (operation.on medium.store s).2 ∧
      outcome.2.depth = 0 ∧ medium.view.opened outcome.2.inner.inner = [] := by
  intro outcome
  have laws := medium.faithful.toTransactional
  have same := Program.run_retrying medium.calm policy le_rfl laws medium.faithful.once
      operation.relays
    (t := ⟨⟨s, script, 0⟩, 0⟩) rfl (Scripted.faults_of_encard s few worth)
  have depth := (Retrying.keeps_depth policy (Scripted.store medium.store)).run
    operation.perform.run.only_true ⟨⟨s, script, 0⟩, 0⟩
  have levels := (Retrying.keeps_opened laws policy).run operation.perform.run.only_true
    ⟨⟨s, script, 0⟩, 0⟩
  exact ⟨(Prod.ext_iff.mp same).1, (Prod.ext_iff.mp same).2, depth, levels.trans closed⟩

/-- The last write of the first attempt fails, then the commit of the second and the
begin of the third. -/
theorem faults_unseen_by_registration :
    let operation : Operation := .createVulnerability none "parse"
    let s := ((Operation.upsertLibrary ⟨"parser", "1.0"⟩ ["parse"]).on Medium.database.store
      Medium.database.initial).2
    let script (position : Nat) : Option StoreError :=
      if position ∈ [5, 12, 13] then some (.unavailable "busy") else none
    let outcome := operation.on (Retrying.store {} (Scripted.store Medium.database.store))
      ⟨⟨s, script, 0⟩, 0⟩
    outcome.1.isOk = true ∧ outcome.2.inner.position = 21 ∧
    outcome.1 = (operation.on Medium.database.store s).1 ∧
    outcome.2.inner.inner = (operation.on Medium.database.store s).2 ∧
    outcome.2.depth = 0 ∧ Medium.database.view.opened outcome.2.inner.inner = [] := by
  intro operation s script outcome
  have answered : outcome.1.isOk = true := by decide +kernel
  have requests : outcome.2.inner.position = 21 := by decide +kernel
  have closed : Medium.database.view.opened s = [] :=
    Medium.database.faithful.run_opened Medium.database.faithful.once _ Medium.database.initial
  have worth (k : Nat) (error : StoreError) (fault : script k = some error) :
      error.isTransient = true := by
    dsimp only [script] at fault
    split at fault
    · cases fault
      rfl
    · cases fault
  have few : {k | (script k).isSome}.encard ≤ (({} : RetryPolicy).maxRetries : ℕ∞) := by
    have among : {k | (script k).isSome} ⊆ (({5, 12, 13} : Finset Nat) : Set Nat) := by
      intro k fault
      simpa [script] using fault
    apply (Set.encard_le_encard among).trans
    rw [Set.encard_coe_eq_coe_finsetCard]
    exact le_rfl
  clear_value operation s
  exact ⟨answered, requests, faults_unseen .database {} worth few closed operation⟩

end Operation

end BlastRadius
