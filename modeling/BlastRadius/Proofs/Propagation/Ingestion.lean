import BlastRadius.Proofs.Inventory.CallRecords
import BlastRadius.Proofs.Inventory.Threats
import BlastRadius.Proofs.Propagation.Monotone

/-!
Ingesting more never shrinks what a vulnerability reaches. Operations that remove no node leave more
nodes and edges, and leave each vulnerability with the symbol that it threatened. A seeded
propagation then marks more. No record of calls is passed over that was not before: a caller may
come nearer to the threatened symbol by new calls, but only by calls of its one record.
-/

namespace BlastRadius

open Contents

namespace Contents

variable {c c' : Contents}

theorem kept_extended : Kept ExtendedBy := by
  have call {q : Call} (adds : q.removes = false) : Keeps ExtendedBy (StoreProgram.call q) :=
    keeps_call fun change => change.extendedBy adds
  refine ⟨.refl, .trans, fun {q} _ _ plain change => change.extendedBy ?_, fun owner _ => ?_,
    fun request => ?_, fun identity symbol => ?_⟩
  · cases q <;> first | rfl | cases plain
  · exact keeps_exposing .refl .trans (call rfl) fun _ => call rfl
  · exact keeps_recording .refl .trans (call rfl) fun _ _ => call rfl
  · exact keeps_registering .refl .trans (fun _ => call rfl) (call rfl) fun _ _ => call rfl

theorem without_of_none {kind : NodeKind} (none : c.ofKind kind = ∅) : c.without kind = c := by
  have spared (id : NodeId) : id ∉ c.ofKind kind := none ▸ Set.notMem_empty id
  refine Contents.ext (funext fun id => Option.ext fun node => ?_) (Set.ext fun e => ?_) ?_
  · rw [without_node?_eq_some]
    exact and_iff_left_of_imp fun found same => spared id ⟨node, found, same⟩
  · exact and_iff_left ⟨spared _, spared _⟩
  · change c.marked \ c.ofKind kind = c.marked
    rw [none, Set.sdiff_empty]

theorem withoutAll_of_none {kinds : List NodeKind}
    (none : ∀ kind ∈ kinds, c.ofKind kind = ∅) :
    c.withoutAll kinds = c := by
  induction kinds with
  | nil => rfl
  | cons kind rest ih =>
      change (c.without kind).withoutAll rest = c
      rw [without_of_none (none kind List.mem_cons_self)]
      exact ih fun other mem => none other (List.mem_cons_of_mem kind mem)

theorem withoutAll_of_live {kinds : List NodeKind} (stay : c.live ⊆ (c.withoutAll kinds).live) :
    c.withoutAll kinds = c := by
  refine withoutAll_of_none fun kind mem => Set.eq_empty_iff_forall_notMem.mpr fun id own => ?_
  obtain ⟨node, found⟩ := stay (ofKind_subset_live kind own)
  obtain ⟨found, spared⟩ := withoutAll_node?.mp found
  exact spared ((mem_ofKind found).mp own ▸ mem)

end Contents

namespace Medium

variable {medium : Medium} {operations later : List Operation}

/-- None of the later operations removes a node. -/
def Retains (medium : Medium) (operations later : List Operation) : Prop :=
  ∀ before operation, before ++ [operation] <+: later →
    (medium.contents (operations ++ before)).live ⊆
      (medium.contents (operations ++ (before ++ [operation]))).live

theorem contents_retained {R : Contents → Contents → Prop} (kept : Kept R)
    (fits : medium.Fits (operations ++ later)) (retains : medium.Retains operations later) :
    R (medium.contents operations) (medium.contents (operations ++ later)) := by
  induction later using List.reverseRecOn with
  | nil =>
      rw [List.append_nil]
      exact kept.refl _
  | append_singleton before operation ih =>
      have stay := retains before operation (List.prefix_refl _)
      have earlier := ih (fits.before (by simp)) fun first next among =>
        retains first next (among.trans (List.prefix_append _ _))
      rw [← List.append_assoc] at fits stay ⊢
      refine kept.trans earlier ?_
      by_cases removes : operation.removed = []
      · exact contents_kept kept fits removes
      · rw [contents_removed fits removes] at stay ⊢
        rw [withoutAll_of_live stay]
        exact kept.refl _

theorem retains_of_removed (fits : medium.Fits (operations ++ later))
    (nothing : ∀ operation ∈ later, operation.removed = []) :
      medium.Retains operations later := by
  rintro before operation among id ⟨node, found⟩
  have first : operations ++ before ++ [operation] <+: operations ++ later := by
    rw [List.append_assoc]
    exact (List.prefix_append_right_inj operations).mpr among
  have added : operation ∈ later := among.subset (by simp)
  have grown := contents_kept kept_extended (fits.before first) (nothing operation added)
  rw [← List.append_assoc]
  exact ⟨node, grown.nodes found⟩

end Medium

namespace Propagation

variable {c c' : Contents} {config : PropagationConfig} {identity : Option String} {v g : NodeId}

theorem among_seeded (symbol : g ∈ c.ofKind .symbol) :
    (c.unmarked.mark {g}).among (c.unmarked.mark {g}).marked .symbol = {g} := by
  change (∅ ∪ {g}) ∩ c.ofKind .symbol = {g}
  rw [Set.empty_union]
  exact Set.inter_eq_left.mpr (Set.singleton_subset_iff.mpr symbol)

theorem leads_run_propagated (valid : c.Valid) (untimed : config.deadlineMs = none)
    (leastV : IsLeast (c.vulnerabilities identity) v)
    (leastG : IsLeast (c.targets v .threatens) g) :
    ∃ report, Leads (run config identity).run c (.ok report)
        (propagated config.converge (c.unmarked.mark {g})) ∧
      report.vulnerability = some v ∧ report.seed = some g := by
  have live := ofKind_subset_live _ (valid.threatened leastG.1)
  have seeded : (c.unmarked.mark {g}).Valid :=
    valid.unmarked.mark (Set.singleton_subset_iff.mpr live)
  obtain ⟨report, propagates⟩ := leads_propagate_propagated seeded untimed
  exact ⟨_, leads_run_seeded valid leastV leastG propagates, rfl, rfl⟩

theorem seeded_of_run (medium : Medium) {s s' : medium.State} (sound : medium.view.sound s)
    {report : PropagationReport}
    (ran : (run config identity).run.run medium.store s = (.ok report, s')) :
    ∃ v g, IsLeast ((medium.view.holds s).vulnerabilities identity) v ∧
      IsLeast ((medium.view.holds s).targets v .threatens) g := by
  by_contra unseeded
  have none (v : NodeId) (least : IsLeast ((medium.view.holds s).vulnerabilities identity) v) :
      (medium.view.holds s).targets v .threatens = ∅ := by
    by_contra threatens
    obtain ⟨g, leastG⟩ := NodeId.exists_isLeast threatens
    exact unseeded ⟨v, g, least, leastG⟩
  have failing : ∃ error, Leads (run config identity).run (medium.view.holds s) (.error error)
    (medium.view.holds s) := leads_run_error none
  obtain ⟨error, leads⟩ := failing
  obtain ⟨_, failed, _⟩ := medium.run_of_leads sound leads
  rw [ran] at failed
  cases failed

/-- More nodes and edges pass over no further record of calls when each caller has one record and
the symbol that the propagation starts from is the same. -/
theorem passedOver_retracted (extended : c.ExtendedBy c')
    (one : ∀ a, (c'.sources a .caller).Subsingleton) (start : c.among c.marked .symbol = {g})
    (start' : c'.among c'.marked .symbol = {g}) {r : NodeId}
    (record : r ∈ c.ofKind .callGraphDependency) (unmarked : r ∉ c.marked)
    (passed : c'.PassedOver r) : c.PassedOver r := by
  refine ⟨record, unmarked, fun s t n calls near => ?_⟩
  obtain ⟨-, -, nearer⟩ := passed
  rw [start] at near ⊢
  rw [start'] at nearer
  by_contra far
  have reached : ∃ m, s ∈ c'.within {g} m :=
    ⟨n, nearer s t n (extended.calls calls) (extended.within subset_rfl n near)⟩
  -- At its least distance the caller reaches the next smaller one by a call of the same record.
  classical
  rcases distance : Nat.find reached with _ | m
  · have first : s ∈ c'.within {g} 0 := distance ▸ Nat.find_spec reached
    exact far (subset_within {g} n first)
  · have outside : s ∉ c'.within {g} m := Nat.find_min reached (by omega)
    have inside : s ∈ c'.within {g} (m + 1) := distance ▸ Nat.find_spec reached
    obtain ⟨r', t', near', calls'⟩ := inside.resolve_left outside
    obtain rfl : r = r' := one s (extended.calls calls).2 calls'.2
    exact outside (nearer s t' m calls' near')

theorem propagated_extended (valid : c.Valid) (valid' : c'.Valid) (extended : c.ExtendedBy c')
    (one : ∀ a, (c'.sources a .caller).Subsingleton) (symbol : g ∈ c.ofKind .symbol)
    (converge : Bool) :
    (propagated converge (c.unmarked.mark {g})).marked ⊆
      (propagated converge (c'.unmarked.mark {g})).marked := by
  have live {c : Contents} (symbol : g ∈ c.ofKind .symbol) : {g} ⊆ c.unmarked.live :=
    Set.singleton_subset_iff.mpr (ofKind_subset_live _ symbol)
  have symbol' := extended.ofKind _ symbol
  have seeded := valid.unmarked.mark (live symbol)
  have seeded' := valid'.unmarked.mark (live symbol')
  have unmarked : c.unmarked.ExtendedBy c'.unmarked := ⟨extended.nodes, extended.edges⟩
  have covered : (c.unmarked.mark {g}).CoveredBy (c'.unmarked.mark {g}) :=
    unmarked.mark fun _ mem => Or.inl mem
  intro x marked
  by_cases record : x ∈ c.ofKind .callGraphDependency
  · have passes := (mem_propagated_iff converge seeded record).mp marked
    refine (mem_propagated_iff converge seeded' (extended.ofKind _ record)).mpr
      fun passed => passes ?_
    have bare : x ∉ (c.unmarked.mark {g}).marked := by
      rintro (none | rfl)
      · exact none
      · exact not_mem_ofKind_of_ne record NodeKind.noConfusion symbol
    exact passedOver_retracted covered.toExtendedBy one (among_seeded symbol) (among_seeded symbol')
      record bare passed
  · refine ((covered.propagated seeded converge).marks x marked).resolve_right fun own => record ?_
    rwa [ofKind_propagated] at own

/-- When a seeded propagation without a deadline succeeds, it also succeeds after further operations
that remove no node, from the same symbol, and marks every node that it marked before. -/
theorem run_marks_more_after_ingestion {medium : Medium} {operations later : List Operation}
    (fits : medium.Fits (operations ++ later)) (retains : medium.Retains operations later)
    {config : PropagationConfig} (untimed : config.deadlineMs = none) {identity : Option String}
    {report : PropagationReport} {s : medium.State}
    (ran : (run config identity).run.run medium.store (medium.reached operations) =
      (.ok report, s)) :
    ∃ report' s',
      (run config identity).run.run medium.store (medium.reached (operations ++ later)) =
        (.ok report', s') ∧
      report'.vulnerability = report.vulnerability ∧ report'.seed = report.seed ∧
      (medium.view.holds s).marked ⊆ (medium.view.holds s').marked := by
  have first := fits.before (List.prefix_append operations later)
  have registered := Medium.contents_registered first
  have extended := Medium.contents_retained kept_extended fits retains
  have threats := Medium.contents_retained kept_threats fits retains registered
  obtain ⟨v, g, leastV, leastG⟩ := seeded_of_run medium (Medium.reached_sound first) ran
  have vulnerability : v ∈ (medium.contents operations).ofKind .vulnerability :=
    ⟨_, leastV.1, rfl⟩
  have leastV' : IsLeast ((medium.contents (operations ++ later)).vulnerabilities identity) v :=
    ⟨extended.nodes leastV.1, fun other mem =>
      (threats.registered.identities _ (extended.nodes leastV.1) mem).le⟩
  have leastG' : IsLeast ((medium.contents (operations ++ later)).targets v .threatens) g := by
    rwa [threats.targets v vulnerability]
  obtain ⟨_, leads, vulnerable, seed⟩ :=
    leads_run_propagated registered.valid untimed leastV leastG
  obtain ⟨report', leads', vulnerable', seed'⟩ :=
    leads_run_propagated threats.registered.valid untimed leastV' leastG'
  obtain ⟨_, same, holds, _⟩ := medium.run_of_leads (Medium.reached_sound first) leads
  obtain ⟨s', ran', holds', _⟩ := medium.run_of_leads (Medium.reached_sound fits) leads'
  rw [ran] at same
  cases same
  refine ⟨report', s', ran', vulnerable'.trans vulnerable.symm, seed'.trans seed.symm, ?_⟩
  rw [holds, holds']
  exact propagated_extended registered.valid threats.registered.valid extended
    (Medium.contents_recorded fits).records (registered.valid.threatened leastG.1) config.converge

/-- The later operations bring a caller nearer to the threatened symbol. -/
theorem run_marks_more_after_ingestion_of_calls :
    let operations : List Operation :=
      [.upsertSymbol "parse", .upsertSymbol "read", .upsertSymbol "main",
        .addCalls "read" ["parse"],
        .addCalls "main" ["read"], .createVulnerability (some "weakness") "parse"]
    let later : List Operation :=
      [.addCalls "main" ["parse"], .upsertLibrary ⟨"parser", "1.0"⟩ ["parse"], .resetMarks]
    let after (operations : List Operation) :=
      (run {} (some "weakness")).run.run Medium.database.store (Medium.database.reached operations)
    ∃ report s report' s', after operations = (.ok report, s) ∧
      after (operations ++ later) = (.ok report', s') ∧
      report'.vulnerability = report.vulnerability ∧ report'.seed = report.seed ∧
      (Medium.database.view.holds s).marked ⊆ (Medium.database.view.holds s').marked := by
  intro operations later after
  have fits : Medium.database.Fits (operations ++ later) := fun _ _ _ => trivial
  have retains : Medium.database.Retains operations later :=
    Medium.retains_of_removed fits (by decide)
  have succeeds : (after operations).1.isOk = true := by decide +kernel
  rcases ran : after operations with ⟨error | report, s⟩
  · rw [ran] at succeeds
    cases succeeds
  · obtain ⟨report', s', grown⟩ := run_marks_more_after_ingestion fits retains rfl ran
    exact ⟨report, s, report', s', rfl, grown⟩

end Propagation

end BlastRadius
