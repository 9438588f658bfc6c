import BlastRadius.Proofs.Parity.Propagation
import BlastRadius.Proofs.Parity.Queries
import BlastRadius.Proofs.Parity.Resets

/-!
Every operation does alike on contents that differ in their identifiers.
-/

namespace BlastRadius

variable {c : Contents} {f : Renaming}

/-- Run on contents and on the renamed contents, a program ends with contents that correspond again
and with answers that agree. Nodes may be gone. -/
def Agreeing (c : Contents) (f : Renaming) (p : ImpactProgram Answer) : Prop :=
  c.Tidy → ∀ x c₁ y c₂, p.run.Runs Contents.Step c x c₁ →
    p.run.Runs Contents.Step (c.rename f) y c₂ →
    ∃ f', c₂ = c₁.rename f' ∧ c₁.Tidy ∧ ResultsAgree f' x y

namespace Agreeing

variable {α : Type}

theorem ofAlike {p : ImpactProgram α} {R : Contents → Renaming → α → α → Prop}
    {answer : α → Answer}
    (alike : Alike c f p p R)
    (related : ∀ c₁ f₁ a b, R c₁ f₁ a b → (answer a).Agree f₁ (answer b)) :
    Agreeing c f (answer <$> p) := by
  intro tidy x c₁ y c₂ ran ran'
  obtain ⟨x, inner, rfl⟩ := runs_exceptT_map.mp ran
  obtain ⟨y, inner', rfl⟩ := runs_exceptT_map.mp ran'
  obtain ⟨f₁, same, tidy₁, _, both⟩ := alike tidy x c₁ y c₂ inner inner'
  refine ⟨f₁, same, tidy₁, ?_⟩
  rcases x with e | a <;> rcases y with e' | b
  · exact Or.inl (both : e = e').symm
  · exact both.elim
  · exact both.elim
  · exact related c₁ f₁ a b both

theorem ofLeads {p : ImpactProgram Answer}
    (determined : c.Tidy → (c.rename f).Valid → ∃ x y c₁, Leads p.run c x c₁ ∧
      Leads p.run (c.rename f) y (c₁.rename f) ∧ c₁.Tidy ∧ ResultsAgree f x y) :
    Agreeing c f p := by
  intro tidy x c₁ y c₂ ran ran'
  obtain ⟨x', y', c', leads, leads', tidy', agree⟩ := determined tidy (tidy.valid.rename f)
  obtain ⟨rfl, rfl⟩ := leads.unique_of_runs ran
  obtain ⟨rfl, rfl⟩ := leads'.unique_of_runs ran'
  exact ⟨f, rfl, tidy', agree⟩

theorem ofInvalidSeed {p : ImpactProgram Answer} {identity : Option String}
    (fails : ∀ c' error, Leads (Inventory.seed identity).run c' (.error error) c' →
      Leads p.run c' (.error error) c')
    (invalid : ¬ ∀ v ∈ c.vulnerabilities identity, c.targets v .threatens ≠ ∅) :
      Agreeing c f p := by
  obtain ⟨v, invalid⟩ := not_forall.mp invalid
  obtain ⟨given, invalid⟩ := Classical.not_imp.mp invalid
  refine .ofLeads fun tidy _ => ?_
  obtain ⟨left, right⟩ := leads_seeds_invalid (f := f) tidy given (not_not.mp invalid)
  exact ⟨_, _, c, fails _ _ left, fails _ _ right, tidy, Or.inr ⟨v, rfl, rfl⟩⟩

theorem seed (identity : Option String) : Agreeing c f (Operation.seed identity).perform := by
  by_cases threatening : ∀ v ∈ c.vulnerabilities identity, c.targets v .threatens ≠ ∅
  · refine ofAlike (Alike.seed threatening) fun c₁ f₁ a b related => ?_
    obtain ⟨vulnerability, symbol, cleared⟩ := b
    obtain ⟨⟨_, rfl⟩, ⟨_, rfl⟩, rfl⟩ := related
    rfl
  · exact ofInvalidSeed (fun c' error leads => leads.map_error _) threatening

theorem run (config : PropagationConfig) (identity : Option String) :
    Agreeing c f (Operation.run config identity).perform := by
  by_cases threatening : ∀ v ∈ c.vulnerabilities identity, c.targets v .threatens ≠ ∅
  · exact ofAlike (Alike.run config threatening) fun _ _ _ _ agree => agree
  · exact ofInvalidSeed (fun c' error leads => leads.bind_error.map_error _) threatening

theorem resetMarks : Agreeing c f Operation.resetMarks.perform := by
  refine .ofLeads fun tidy _ => ?_
  have leads (c : Contents) : Leads Operation.resetMarks.perform.run c
      (.ok (.count c.marked.ncard)) c.unmarked :=
    (Leads.ofStore (Leads.call (q := .clearMarks) rfl)).map Answer.count
  have right := leads (c.rename f)
  rw [← Contents.rename_unmarked] at right
  refine ⟨_, _, _, leads c, right, tidy.unmarked, ?_⟩
  change (c.rename f).marked.ncard = c.marked.ncard
  rw [Contents.rename_marked, NodeId.ncard_image]

theorem reset : Agreeing c f Operation.reset.perform := by
  refine .ofLeads fun _ _ => ?_
  have leads (c : Contents) : Leads Operation.reset.perform.run c (.ok .done) .empty :=
    (Leads.ofStore (Leads.call (q := .reset) rfl)).map fun _ => Answer.done
  have right := leads (c.rename f)
  rw [← Contents.rename_empty (f := f)] at right
  exact ⟨_, _, _, leads c, right, Contents.empty_tidy, trivial⟩

theorem resetKinds (kinds : List NodeKind) :
    Agreeing c f (Answer.removed <$> Query.resetKinds kinds) := by
  refine .ofLeads fun tidy _ => ?_
  have right := leads_resetKinds (c := c.rename f) kinds
  rw [← Contents.rename_withoutAll, Contents.removals_rename] at right
  exact ⟨_, _, _, (leads_resetKinds kinds).map Answer.removed, right.map Answer.removed,
    tidy.withoutAll Query.endpoint_mem_withEndpoints, rfl⟩

end Agreeing

/-- Every operation does alike. -/
theorem Operation.agreeing (operation : Operation) : Agreeing c f operation.perform := by
  cases operation with
  | upsertLibrary artifact symbols =>
      refine .ofAlike (Alike.upsertLibrary artifact symbols) fun _ _ _ _ related => ?_
      exact ⟨related.1.2, (Alike.twins_eq_map related.2).1⟩
  | upsertSymbol identity => exact .ofAlike (Alike.upsertSymbol identity) fun _ _ _ _ twin => twin.2
  | addCalls caller callees =>
      exact .ofAlike (Alike.addCalls caller callees) fun _ _ _ _ agree => agree
  | upsertComponent artifact =>
      exact .ofAlike (Alike.upsertComponent artifact) fun _ _ _ _ twin => twin.2
  | upsertAsset artifact => exact .ofAlike (Alike.upsertAsset artifact) fun _ _ _ _ twin => twin.2
  | hostComponent guest host =>
      exact .ofAlike (Alike.hostComponent guest host) fun _ _ _ _ same => same
  | upsertSystem name parts =>
      exact .ofAlike (Alike.upsertSystem name parts) fun _ _ _ _ twin => twin.2
  | upsertEndpoint endpoint =>
      exact .ofAlike (Alike.upsertEndpoint endpoint) fun _ _ _ _ twin => twin.2
  | findEndpoint endpoint =>
      exact .ofAlike (Alike.findEndpoint endpoint) fun _ _ _ _ twin => twin.2
  | addNetworkCalls caller callees =>
      exact .ofAlike (Alike.addNetworkCalls caller callees) fun _ _ _ _ agree => agree
  | addServes endpoint symbol =>
      exact .ofAlike (Alike.addServes endpoint symbol) fun _ _ _ _ same => same
  | createBinding request =>
      exact .ofAlike (Alike.createBinding request) fun _ _ _ _ agree => agree
  | createVulnerability identity symbol =>
      exact .ofAlike (Alike.createVulnerability identity symbol) fun _ _ _ _ agree => agree
  | loadFixture fixture => exact .ofAlike (Alike.loadFixture fixture) fun _ _ _ _ same => same
  | seed identity => exact .seed identity
  | run config identity => exact .run config identity
  | propagate config => exact .ofAlike (Alike.propagate config) fun _ _ _ _ agree => agree.1
  | runStage stage =>
      exact .ofAlike (.execute Propagation.timeless stage) fun _ _ _ _ same => same
  | marked kind => exact .ofAlike (Alike.marked kind) fun _ _ _ _ lists => lists
  | radius => exact .ofAlike Alike.radius fun _ _ _ _ groups => groups
  | library artifact => exact .ofAlike (Alike.library artifact) fun _ _ _ _ same => same
  | component artifact => exact .ofAlike (Alike.component artifact) fun _ _ _ _ same => same
  | callees symbol => exact .ofAlike (Alike.callees symbol) fun _ _ _ _ same => same
  | flowchart => exact .ofAlike Alike.flowchart fun _ _ _ _ agree => agree
  | resetMarks => exact .resetMarks
  | reset => exact .reset
  | resetKinds kinds => exact .resetKinds kinds
  | resetDomain domain => exact .resetKinds domain.kinds

end BlastRadius
