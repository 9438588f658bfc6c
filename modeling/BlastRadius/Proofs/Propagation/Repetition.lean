import BlastRadius.Proofs.Propagation.Marking
import BlastRadius.Proofs.Propagation.SinglePass
import BlastRadius.Proofs.Store.Exhaustion
import BlastRadius.Proofs.Store.Interruption

/-!
Seeded propagations one after the other. A seed clears the marks, so that what was marked before has
no influence, and a propagation changes nothing but marks, also when it is cut off by a fault.
-/

namespace BlastRadius

namespace Contents

/-- The same nodes and edges, whatever is marked. -/
structure SameGraph (c c' : Contents) : Prop where
  nodes : c'.node? = c.node?
  edges : c'.edges = c.edges

namespace SameGraph

variable {c c' c'' : Contents}

theorem refl (c : Contents) : SameGraph c c := ⟨rfl, rfl⟩

theorem trans (first : SameGraph c c') (second : SameGraph c' c'') : SameGraph c c'' :=
  ⟨second.nodes.trans first.nodes, second.edges.trans first.edges⟩

theorem unmarked (same : SameGraph c c') : c'.unmarked = c.unmarked :=
  Contents.ext same.nodes same.edges rfl

theorem targets (same : SameGraph c c') (id : NodeId) (relation : Relation) :
    c'.targets id relation = c.targets id relation := by
  rw [Contents.targets, same.edges, Contents.targets]

theorem vulnerabilities (same : SameGraph c c') (identity : Option String) :
    c'.vulnerabilities identity = c.vulnerabilities identity := by
  rw [Contents.vulnerabilities, same.nodes, Contents.vulnerabilities]

end SameGraph

theorem keptByMarks : KeptByCalls (fun q => q.marks = true) SameGraph where
  refl := .refl
  trans := .trans
  old marks := by
    rename_i q
    cases q <;> first | rfl | cases marks
  steps marks c r c' stepped := by
    cases Tried.change (Or.inl stepped) with
    | none => exact .refl c
    | mark => exact ⟨rfl, rfl⟩
    | unmark => exact ⟨rfl, rfl⟩
    | _ => cases marks

end Contents

open Contents

namespace Propagation

variable {c c' : Contents} {config : PropagationConfig} {identity : Option String}

theorem run_only (config : PropagationConfig) (identity : Option String) :
    (run config identity).run.Only fun q => q.marks = true := by
  have marking {q : Call} (marks : q.marks = true) : EachStep (fun q => q.marks = true)
      (fun _ body => body.Only fun q => q.marks = true) (StoreProgram.call q) := .call marks
  have seeding (symbol : NodeId) : (Inventory.seeding symbol).run.Only fun q => q.marks = true :=
    Program.only_iff_each.mpr ((marking rfl).bind fun _ => (marking rfl).bind fun _ => .pure _)
  exact Program.only_iff_each.mpr ((AllowsMarks.mk id seeding).run config identity)

/-- Two seeded propagations on the same nodes and edges succeed alike, or fail alike before anything
is changed. -/
theorem leads_run_both (valid : c.Valid) (valid' : c'.Valid) (same : SameGraph c c')
    (now : config.InTime) :
    (∃ report final, Leads (run config identity).run c (.ok report) final ∧
      Leads (run config identity).run c' (.ok report) final) ∨
    ∃ error, Leads (run config identity).run c (.error error) c ∧
      Leads (run config identity).run c' (.error error) c' := by
  by_cases unknown : c.vulnerabilities identity = ∅
  · have unknown' := (same.vulnerabilities identity).trans unknown
    exact Or.inr ⟨_, (Inventory.leads_seed_notFound unknown).bind_error,
      (Inventory.leads_seed_notFound unknown').bind_error⟩
  · obtain ⟨v, least⟩ := NodeId.exists_isLeast unknown
    have least' : IsLeast (c'.vulnerabilities identity) v := same.vulnerabilities identity ▸ least
    by_cases none : c.targets v .threatens = ∅
    · have none' := (same.targets v .threatens).trans none
      exact Or.inr ⟨_, (Inventory.leads_seed_invalid least none).bind_error,
        (Inventory.leads_seed_invalid least' none').bind_error⟩
    · obtain ⟨g, threatened⟩ := NodeId.exists_isLeast none
      have threatened' : IsLeast (c'.targets v .threatens) g :=
        same.targets v .threatens ▸ threatened
      have live := Set.singleton_subset_iff.mpr
        (ofKind_subset_live _ (valid.threatened threatened.1))
      have seeded : (c.unmarked.mark {g}).Valid := valid.unmarked.mark live
      obtain ⟨report, final, propagated⟩ := exists_leads_propagate seeded now
      have propagated' := propagated
      rw [← same.unmarked] at propagated'
      exact Or.inl ⟨_, final, leads_run_seeded valid least threatened propagated,
        leads_run_seeded valid' least' threatened' propagated'⟩

/-- The state after propagations, each of which may have failed. -/
def repeated {σ : Type} (store : Store σ) (runs : List (PropagationConfig × Option String))
    (s : σ) : σ :=
  runs.foldl (fun s (config, identity) => ((run config identity).run.run store s).2) s

theorem repeated_respects {σ : Type} {store : Store σ} {R : σ → σ → Prop}
    (respects : store.Respects (fun q => q.marks = true) R)
    (runs : List (PropagationConfig × Option String)) (s : σ) : R s (repeated store runs s) := by
  induction runs generalizing s with
  | nil => exact respects.refl s
  | cons first rest ih =>
      exact respects.trans (respects.run (run_only first.1 first.2) s) (ih _)

/-- A seeded propagation has the same result in two states, and if it succeeds, it leaves the same
nodes, edges and marks. -/
def RunsAlike (config : PropagationConfig) (identity : Option String) (medium other : Medium)
    (s : medium.State) (s' : other.State) : Prop :=
  let here := (run config identity).run.run medium.store s
  let there := (run config identity).run.run other.store s'
  there.1 = here.1 ∧ (here.1.isOk = true → other.view.holds there.2 = medium.view.holds here.2)

theorem runsAlike_of_sameGraph (untimed : config.deadlineMs = none) {medium other : Medium}
    {s : medium.State} {s' : other.State} (sound : medium.view.sound s)
    (sound' : other.view.sound s') (same : SameGraph (medium.view.holds s) (other.view.holds s')) :
    RunsAlike config identity medium other s s' := by
  rw [RunsAlike]
  rcases leads_run_both (medium.valid_of_sound sound) (other.valid_of_sound sound') same
    (PropagationConfig.inTime_of_untimed untimed) with ⟨report, final, leads, leads'⟩ |
      ⟨error, leads, leads'⟩
  · obtain ⟨t, answer, holds, _⟩ := medium.run_of_leads sound leads
    obtain ⟨t', answer', holds', _⟩ := other.run_of_leads sound' leads'
    rw [answer, answer']
    exact ⟨rfl, fun _ => holds'.trans holds.symm⟩
  · obtain ⟨t, answer, _⟩ := medium.run_of_leads sound leads
    obtain ⟨t', answer', _⟩ := other.run_of_leads sound' leads'
    rw [answer, answer']
    exact ⟨rfl, fun ok => by cases ok⟩

/-- What was marked before, and which propagations were made before, has no influence on a seeded
propagation without a deadline. The earlier ones may have succeeded or been cut off by faults, with
or without further attempts, and leave no level open. -/
theorem run_independent_of_history {config : PropagationConfig} (untimed : config.deadlineMs = none)
    (identity : Option String) :
    (∀ (medium other : Medium) (s : medium.State) (s' : other.State), medium.view.sound s →
      other.view.sound s' → SameGraph (medium.view.holds s) (other.view.holds s') →
      RunsAlike config identity medium other s s') ∧
    ∀ (medium : Medium) (s : medium.State), medium.view.sound s →
      ∀ (script : Nat → Option StoreError) (policy : RetryPolicy)
        (earlier : List (PropagationConfig × Option String)),
      let once := (repeated (Scripted.store medium.store) earlier ⟨s, script, 0⟩).inner
      let retried := (repeated (Retrying.store policy (Scripted.store medium.store)) earlier
        ⟨⟨s, script, 0⟩, 0⟩).inner.inner
      RunsAlike config identity medium medium s once ∧
      medium.view.opened once = medium.view.opened s ∧
      RunsAlike config identity medium medium s retried ∧
      medium.view.opened retried = medium.view.opened s := by
  refine ⟨fun medium other s s' sound sound' same =>
    runsAlike_of_sameGraph untimed sound sound' same,
    fun medium s sound script policy earlier => ?_⟩
  have alike {s' : medium.State} (keeps : medium.view.Keeps SameGraph s s') :
      RunsAlike config identity medium medium s s' :=
    runsAlike_of_sameGraph untimed sound (keeps.holds sound).1 (keeps.holds sound).2
  have once := repeated_respects (Scripted.respects medium.faithful keptByMarks) earlier
    ⟨s, script, 0⟩
  have retried := repeated_respects (Retrying.respects medium.faithful keptByMarks policy) earlier
    ⟨⟨s, script, 0⟩, 0⟩
  exact ⟨alike once, once.opened, alike retried, retried.opened⟩

/-- The first propagation is cut off in its second stage and leaves the marks of the first one. -/
theorem run_independent_of_history_after_fault :
    let s : Medium.database.State := (threatened.run.run Database.store {}).2
    let config : PropagationConfig := { converge := true }
    let script (position : Nat) := if position = 16 then some (.unavailable "busy") else none
    let cut :=
      (repeated (Scripted.store Medium.database.store) [(config, none)] ⟨s, script, 0⟩).inner
    ((run config none).run.run (Scripted.store Database.store) ⟨s, script, 0⟩).1.isOk =
      false ∧
    (Database.store.call (.markedNodes .symbol) cut).1.toOption = some [⟨1⟩, ⟨4⟩] ∧
    RunsAlike config none .database .database s cut ∧
    Medium.database.view.opened cut = Medium.database.view.opened s := by
  intro s config script cut
  have sound : Medium.database.view.sound s := Medium.database.sound_of_few _ (by decide +kernel)
  have failed :
      ((run config none).run.run (Scripted.store Database.store) ⟨s, script, 0⟩).1.isOk =
      false := by decide +kernel
  have marks : (Database.store.call (.markedNodes .symbol) cut).1.toOption =
      some [⟨1⟩, ⟨4⟩] := by
    decide +kernel
  have untimed : config.deadlineMs = none := rfl
  obtain ⟨alike, levels, _⟩ :=
    (run_independent_of_history untimed none).2 .database s sound script {} [(config, none)]
  exact ⟨failed, marks, alike, levels⟩

end Propagation

end BlastRadius
