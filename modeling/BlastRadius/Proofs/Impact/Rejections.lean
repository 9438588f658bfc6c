import BlastRadius.Proofs.Impact.Atomicity
import BlastRadius.Proofs.Impact.Failures
import BlastRadius.Proofs.Inventory.Ledger
import BlastRadius.Proofs.Inventory.Threats
import BlastRadius.Proofs.Propagation.Idempotence

/-!
Operations that are rejected: something that they name does not exist, or what they ask for is not
allowed. A rejection leaves the store as it was, also when the operation writes outside blocks: such
an operation rejects before it writes, or reports in the end which of its targets failed.
-/

namespace BlastRadius

variable {σ τ ε α β : Type}

namespace ImpactError

/-- Whether an error is the fault of the request. -/
def rejects : ImpactError → Bool
  | notFound _ _ | invalid _ | store (.nodeNotFound _) | store (.rule _) => true
  | _ => false

theorem not_rejects_of_exhausted {error : ImpactError} (full : error.exhausted = true) :
    ¬ error.rejects = true := by
  cases error with
  | store error => cases error <;> first | exact Bool.false_ne_true | cases full
  | partialFailure attempted failures => exact Bool.false_ne_true
  | _ => cases full

end ImpactError

/-- A failure with an error as `E` says. -/
def FailsWith (E : ε → Prop) : Except ε α → Prop
  | .ok _ => False
  | .error error => E error

abbrev Rejected (x : Except ImpactError α) : Prop :=
  FailsWith (fun error => error.rejects = true) x

theorem FailsWith.failsOr {E : ε → Prop} {P : α → Prop} {x : Except ε α}
    (fails : FailsWith E x) :
    FailsOr P x := by
  rintro value rfl
  exact fails.elim

theorem failsWith_map {E : ε → Prop} {f : α → β} {x : Except ε α} :
    FailsWith E (x.map f) ↔ FailsWith E x := by
  cases x <;> exact Iff.rfl

/-- Whenever a program is rejected, it leaves the state behind as it was. -/
abbrev Refuses (front : Store τ) (base : τ → σ) (p : ImpactProgram α) : Prop :=
  Leaves base Rejected (p.run.run front)

section Leaving

variable {front : Store τ} {base : τ → σ} {E : ε → Prop} {p : ExceptT ε Program α}

theorem Leaves.bind {p : Program α} {next : α → Program β} {P : α → Prop} {Q : β → Prop}
    (first : Leaves base P (p.run front))
    (after : ∀ x, P x → Leaves base Q ((next x).run front))
    (other : ∀ x, ¬ P x → (next x).Answers fun y => ¬ Q y) :
    Leaves base Q ((p >>= next).run front) := by
  intro t ends
  rw [Program.run_bind] at ends ⊢
  by_cases holds : P (p.run front t).1
  · exact (after _ holds _ ends).trans (first t holds)
  · exact absurd ends ((other _ holds).run front _)

theorem Spares.leaves (spares : Spares front base p) :
    Leaves base (FailsWith E) (p.run.run front) :=
  fun t fails => spares t fails.failsOr

theorem Leaves.map (leaves : Leaves base (FailsWith E) (p.run.run front)) (f : α → β) :
    Leaves base (FailsWith E) ((f <$> p).run.run front) := by
  rw [ExceptT.run_map, map_eq_pure_bind]
  refine Leaves.bind leaves (fun _ _ _ _ => rfl) fun x other => ?_
  cases x <;> exact other

/-- What is left to do after a part that leaves no trace when it fails may fail in other ways. -/
theorem Spares.bind_leaves {next : α → ExceptT ε Program β} (spares : Spares front base p)
    (rest : ∀ value, Fails (fun error => ¬ E error) (next value)) :
    Leaves base (FailsWith E) ((p >>= next).run.run front) := by
  rw [ExceptT.run_bind]
  refine Leaves.bind spares (fun x failed => ?_) fun x other => ?_
  · cases x with
    | ok value => exact absurd rfl (failed value)
    | error error => exact fun _ _ => rfl
  · cases x with
    | ok value =>
        refine Program.Answers.mono (rest value) fun y ends => ?_
        cases y with
        | ok value => exact id
        | error error => exact ends
    | error error => exact absurd (failsOr_error _ error) other

theorem Spares.bind_sure {next : α → ExceptT ε Program β} (spares : Spares front base p)
    (sure : ∀ value, Fails (fun _ => False) (next value)) : Spares front base (p >>= next) := by
  intro t failed
  refine spares.bind_leaves (E := fun _ => True) (fun value => ?_) t ?_
  · simpa only [not_true_eq_false] using sure value
  · rcases ran : ((p >>= next).run.run front t).1 with error | value
    · trivial
    · exact failed value ran

theorem Spares.ofStore {p : StoreProgram α} (spares : Spares front base p) :
    Spares front base (ImpactProgram.ofStore p) := by
  rw [Spares, ImpactProgram.ofStore, ExceptT.run_mk, map_eq_pure_bind]
  refine Leaves.bind spares (fun _ _ _ _ => rfl) fun x other => ?_
  cases x with
  | ok value => exact fun failed => failed value rfl
  | error error => exact absurd (failsOr_error _ error) other

theorem Spares.of_stopped {next : α → ExceptT ε Program β}
    (spares : Spares front base p) {t : τ}
    {error : ε} (stopped : (p.run.run front t).1 = .error error) :
    base ((p >>= next).run.run front t).2 = base t := by
  have same := spares t
  rw [stopped] at same
  rw [ExceptT.run_bind, Program.run_bind, stopped]
  exact same (failsOr_error _ error)

end Leaving

theorem ofResult_not_rejected (outcomes : Outcomes α) :
    Fails (fun error => ¬ error.rejects = true) (ImpactProgram.ofResult outcomes.result) := by
  obtain ⟨successes, failures⟩ := outcomes
  cases failures with
  | nil => trivial
  | cons failure rest => exact Bool.false_ne_true

namespace Medium

variable (medium : Medium)

theorem spares_call (q : Call) : Spares medium.store id (StoreProgram.call q) := by
  intro s failed
  change FailsOr _ (medium.store.call q s).1 at failed
  change (medium.store.call q s).2 = s
  rcases ran : (medium.store.call q s).1 with error | value
  · exact medium.call_failed ran
  · exact (failed value ran).elim

theorem spares_atomically (body : StoreProgram β) :
    Spares medium.store id (StoreProgram.atomically body) := by
  have idle : Leaves id (fun result => ∃ value, result = .ok value ∧ False)
      (body.run.run medium.store) := by
    rintro s ⟨_, _, impossible⟩
    exact impossible.elim
  exact medium.shelters.atomically idle

theorem spares_mergeNode (node : Node) : Spares medium.store id (StoreProgram.mergeNode node) := by
  have insertion : Spares medium.store id (do
      let id ← StoreProgram.call (.insertNode node)
      return (id, true)) :=
    (medium.spares_call _).bind_sure fun _ => .pure trivial
  rw [StoreProgram.mergeNode]
  split
  · exact insertion
  · rename_i key _
    apply medium.shelters.after_reading (onlyReads_call rfl)
    rintro (_ | known)
    · refine Leaves.bind (p := ExceptT.run (do
        let id ← StoreProgram.call (.insertNode node)
        return (id, true))) insertion (fun x failed => ?_) fun x other => ?_
      · cases x with
        | ok value => exact absurd rfl (failed value)
        | error error =>
            refine fun s _ => medium.shelters.reading ?_ s
            change OnlyReads (ite (error.isUniqueViolation = true) (_ : StoreProgram _)
              (_ : StoreProgram _))
            split
            · refine (onlyReads_call rfl).bind fun known => ?_
              cases known <;> trivial
            · exact .throw error
      · cases x with
        | ok value => exact fun failed => failed value rfl
        | error error => exact absurd (failsOr_error _ error) other
    · exact fun _ _ => rfl

theorem spares_mergedId (node : Node) : Spares medium.store id (Inventory.mergedId node) :=
  (medium.spares_mergeNode node).bind_sure fun _ => .pure trivial

theorem spares_linkDependency (net : CallNetwork) (caller : NodeId) (callees : List NodeId) :
    Spares medium.store id (Inventory.linkDependency net caller callees) := by
  rw [Inventory.linkDependency]
  split
  · exact fun _ _ => rfl
  · exact (medium.spares_atomically _).bind_sure fun _ => .pure trivial

theorem refuses_merged (node : Node) (holds : Bool) (reason : String) : Refuses medium.store id (do
    ImpactProgram.require holds reason
    ImpactProgram.ofStore (Inventory.mergedId node)) :=
  medium.shelters.after_reading (.require _ _) fun _ => (medium.spares_mergedId node).ofStore.leaves

theorem refuses_hostComponent (guest host : Artifact) :
    Refuses medium.store id (Inventory.hostComponent guest host) :=
  medium.shelters.after_reading (.findAs id _ _) fun _ =>
    medium.shelters.after_reading (.findAs id _ _) fun _ => (medium.spares_call _).ofStore.leaves

theorem refuses_addServes (endpoint : EndpointRef) (symbol : String) :
    Refuses medium.store id (Inventory.addServes endpoint symbol) :=
  medium.shelters.after_reading (.bind (.findAs id _ _) fun _ => .findAs id _ _) fun _ =>
    medium.shelters.after_reading (.findAs id _ _) fun _ => (medium.spares_call _).ofStore.leaves

theorem refuses_linkOutcomes (net : CallNetwork) (caller : NodeId) (outcomes : Outcomes NodeId) :
    Refuses medium.store id (Inventory.linkOutcomes net caller outcomes) :=
  (medium.spares_linkDependency net caller _).ofStore.bind_leaves fun _ =>
    (ofResult_not_rejected outcomes).bind fun _ _ => .pure trivial

theorem refuses_addCalls (caller : String) (called : List String) :
    Refuses medium.store id (Inventory.addCalls caller called) :=
  medium.shelters.after_reading (.findAs id _ _) fun _ =>
    medium.shelters.after_reading (.collect fun _ => .findAs id _ _) fun outcomes =>
      medium.refuses_linkOutcomes .code _ outcomes

theorem refuses_upsertSystem (name : String) (parts : List Artifact) :
    Refuses medium.store id (Inventory.upsertSystem name parts) :=
  medium.shelters.after_reading (.require _ _) fun _ =>
    (medium.spares_mergedId _).ofStore.bind_leaves fun _ =>
      Gives.collect.bind fun outcomes _ =>
        (ofResult_not_rejected outcomes).bind fun _ _ => .pure trivial

end Medium

open Contents

variable {c : Contents}

theorem Ensures.linkOutcomes_not_rejected (regular : c.Regular) {net : CallNetwork} {a : NodeId}
    {e : Entity} (caller : c.Denotes a e) (kind : e.kind = net.caller) {outcomes : Outcomes NodeId}
    (found : {id | id ∈ outcomes.successes} ⊆ c.ofKind net.caller) :
    Ensures .trying (Inventory.linkOutcomes net a outcomes) c fun x _ => ¬ Rejected x := by
  refine bind (P := fun x _ => ¬ Rejected x) (ofStore ?_) (fun link m _ => ?_) fun _ _ => id
  · refine linkDependency regular caller (kind ▸ caller.ofKind) found (fun _ _ => trivial)
      (fun _ _ _ => id) fun row _ => ?_
    exact Bool.false_ne_true
  · obtain ⟨successes, failures⟩ := outcomes
    cases failures with
    | nil => exact pure id
    | cons failure rest => exact of_leads (Leads.throw _).bind_error Bool.false_ne_true

theorem Ensures.addNetworkCalls_rejected (regular : c.Regular) (caller : EndpointRef)
    (called : List EndpointRef) : Ensures .trying (Inventory.addNetworkCalls caller called)
      c fun x _ =>
      Rejected x → ¬ caller.assertion.Accepted c.shown := by
  refine (upsertEndpoint regular caller fun _ _ _ _ _ _ => trivial).bind ?_ ?_
  · rintro a m ⟨_, gains, denotes⟩
    have apart (t u : EndpointRef) (e : Entity) (needed : e ∈ t.assertion.needs) :
        .present e ∉ u.assertion.facts := by
      rw [List.mem_singleton.mp needed]
      simp [EndpointRef.assertion]
    refine bind (collect_tally .trying EndpointRef.assertion
      (fun t id m => m.Denotes id (.endpoint t)) gains.regular
      (fun denotes grown => denotes.mono grown.extended.nodes) apart fun t _ m _ gains _ =>
        upsertEndpoint gains.regular t fun _ _ _ _ _ _ => trivial) ?_ ?_
    · rintro outcomes m' ⟨_, ⟨⟩, tally⟩
      obtain ⟨gained, _, gains', _⟩ := tally.gains
      refine (linkOutcomes_not_rejected gains'.regular
        (denotes.mono gains'.outgrowth.extended.nodes)
        rfl fun id mem => ?_).mono fun x _ accepted rejected => absurd rejected accepted
      obtain ⟨t, _, _, meant⟩ := tally.successes id mem
      exact meant.ofKind
    · rintro _ _ ⟨_, ⟨⟩, _⟩
  · rintro error m ⟨_, ⟨full, _⟩ | ⟨_, refused⟩⟩ rejected
    · exact absurd rejected (ImpactError.not_rejects_of_exhausted full)
    · exact refused

theorem leads_upsertEndpoint_refused (valid : c.Valid) {endpoint : EndpointRef}
    (refused : ¬ endpoint.assertion.Accepted c.shown) :
    ∃ error, Leads (Inventory.upsertEndpoint endpoint).run c (.error error) c := by
  rw [Inventory.upsertEndpoint]
  cases named : !endpoint.name.isEmpty with
  | false => exact ⟨_, (Leads.throw _).bind_error⟩
  | true =>
      rcases leads_findAs (e := .component endpoint.component) valid rfl
        (toString (NodeKey.component endpoint.component)) with
          ⟨_, missing⟩ | ⟨owner, denotes, _⟩
      · exact ⟨_, (Leads.pure ()).bind missing.bind_error⟩
      · refine absurd ⟨named, fun e mem => ?_⟩ refused
        exact List.mem_singleton.mp mem ▸ ⟨owner, denotes⟩

namespace Medium

variable {medium : Medium} {s : medium.State}

theorem not_rejected_of_leads {p : ImpactProgram α} {x : Except ImpactError α} {c' : Contents}
    (sound : medium.view.sound s) (leads : Leads p.run (medium.view.holds s) x c')
    (accepted : ¬ Rejected x) : ¬ Rejected (p.run.run medium.store s).1 := by
  obtain ⟨_, ran, _⟩ := medium.run_of_leads sound leads
  rwa [ran]

theorem state_of_stopped {p : ImpactProgram α} {next : α → ImpactProgram β} {δ : Type}
    {f : β → δ}
    {error : ImpactError} {c' : Contents} (sound : medium.view.sound s)
    (spares : Spares medium.store id p)
    (leads : Leads p.run (medium.view.holds s) (.error error) c') :
    ((f <$> (p >>= next)).run.run medium.store s).2 = s := by
  obtain ⟨_, ran, _⟩ := medium.run_of_leads sound leads
  rw [Program.run_map]
  exact spares.of_stopped (congrArg Prod.fst ran)

theorem refuses_addNetworkCalls (sound : medium.view.sound s)
    (regular : (medium.view.holds s).Regular)
    {caller : EndpointRef} {called : List EndpointRef}
    (enough : medium.Suffices (Operation.addNetworkCalls caller called).perform.run s)
    (rejected : Rejected ((Operation.addNetworkCalls caller called).on medium.store s).1) :
    ((Operation.addNetworkCalls caller called).on medium.store s).2 = s := by
  have ensures : Ensures .trying (Operation.addNetworkCalls caller called).perform
      (medium.view.holds s) fun x _ =>
        Rejected x → ¬ caller.assertion.Accepted (medium.view.holds s).shown :=
    .map ((Ensures.addNetworkCalls_rejected regular caller called).mono fun x _ refused rejected =>
      refused (failsWith_map.mp rejected))
  have refused := Program.Ensures.runs ensures (medium.runs_tried _ sound enough).1 rejected
  obtain ⟨error, leads⟩ := leads_upsertEndpoint_refused regular.valid refused
  exact state_of_stopped sound (medium.shelters.upsertEndpoint caller) leads

theorem refuses_run (sound : medium.view.sound s) {config : PropagationConfig}
    {identity : Option String}
    (rejected : Rejected ((Operation.run config identity).on medium.store s).1) :
    ((Operation.run config identity).on medium.store s).2 = s := by
  have valid := medium.valid_of_sound sound
  have stopped {error : ImpactError}
      (leads : Leads (Inventory.seed identity).run (medium.view.holds s) (.error error)
        (medium.view.holds s)) : ((Operation.run config identity).on medium.store s).2 = s :=
    state_of_stopped sound (medium.shelters.seed identity) leads
  by_cases unknown : (medium.view.holds s).vulnerabilities identity = ∅
  · exact stopped (Inventory.leads_seed_notFound unknown)
  obtain ⟨v, leastV⟩ := NodeId.exists_isLeast unknown
  by_cases none : (medium.view.holds s).targets v .threatens = ∅
  · exact stopped (Inventory.leads_seed_invalid leastV none)
  · obtain ⟨g, leastG⟩ := NodeId.exists_isLeast none
    obtain ⟨result, c', leads, timely⟩ := exists_leads_run_timely config valid leastV leastG
    refine absurd rejected (not_rejected_of_leads sound leads fun rejected => ?_)
    cases result with
    | ok answer => exact rejected
    | error error =>
        obtain ⟨stage, rfl⟩ := timely error rfl
        exact Bool.false_ne_true rejected

theorem propagate_not_rejected (sound : medium.view.sound s) (config : PropagationConfig) :
    ¬ Rejected ((Operation.propagate config).on medium.store s).1 := by
  obtain ⟨result, c', leads, timely⟩ :=
    Propagation.leads_propagate_timed (medium.valid_of_sound sound) config
  cases result with
  | ok report => exact not_rejected_of_leads sound (leads.map Answer.report) id
  | error error =>
      obtain ⟨stage, rfl⟩ := timely error rfl
      exact not_rejected_of_leads sound (leads.map_error Answer.report) Bool.false_ne_true

theorem runStage_not_rejected (sound : medium.view.sound s) (stage : Stage) :
    ¬ Rejected ((Operation.runStage stage).on medium.store s).1 := by
  have leads := Propagation.leads_runStage (medium.valid_of_sound sound) stage
  exact not_rejected_of_leads sound (leads.map Answer.count) id

variable {operations : List Operation} {operation : Operation}

/-- An operation that is rejected leaves the store as it was. Only loading a fixture may
have recorded some of it. -/
theorem reached_of_rejected (fits : medium.Fits (operations ++ [operation]))
    (single : ∀ fixture, operation ≠ .loadFixture fixture)
    (rejected : Rejected (operation.on medium.store (medium.reached operations)).1) :
    medium.reached (operations ++ [operation]) = medium.reached operations := by
  have before := fits.before (List.prefix_append _ _)
  have sound := reached_sound before
  have enough := fits operations operation (List.prefix_refl _)
  rw [reached_append]
  cases operation with
  | upsertSymbol identity => exact (medium.refuses_merged _ _ _).map _ _ rejected
  | addCalls caller called => exact (medium.refuses_addCalls caller called).map _ _ rejected
  | upsertComponent artifact => exact (medium.refuses_merged _ _ _).map _ _ rejected
  | upsertAsset artifact => exact (medium.refuses_merged _ _ _).map _ _ rejected
  | hostComponent guest host => exact (medium.refuses_hostComponent guest host).map _ _ rejected
  | upsertSystem name parts => exact (medium.refuses_upsertSystem name parts).map _ _ rejected
  | addNetworkCalls caller called =>
      exact refuses_addNetworkCalls sound (contents_regular before) enough rejected
  | addServes endpoint symbol => exact (medium.refuses_addServes endpoint symbol).map _ _ rejected
  | loadFixture fixture => exact absurd rfl (single fixture)
  | run config identity => exact refuses_run sound rejected
  | propagate config => exact absurd rejected (propagate_not_rejected sound config)
  | runStage stage => exact absurd rejected (runStage_not_rejected sound stage)
  | resetMarks => exact ((medium.spares_call .clearMarks).ofStore.map _).leaves _ rejected
  | reset => exact ((medium.spares_call .reset).ofStore.map _).leaves _ rejected
  | findEndpoint _ | marked _ | radius | library _ | component _ | callees _ | flowchart =>
      exact medium.shelters.reading (EachStep.asking id rfl) _
  | _ => exact (medium.shelters.perform rfl).leaves _ rejected

end Medium

end BlastRadius
