import BlastRadius.Proofs.Propagation.FixedPoint
import BlastRadius.Proofs.Propagation.Repetition

/-!
With more nodes, edges and marks to start from, a propagation marks more. The only nodes that may be
left out are records of calls: the closure of calls marks a record where it leads from one distance
to the next smaller one, and with more marks its callers may lie as near as the symbols they call.
-/

namespace BlastRadius

namespace Contents

variable {c c' c'' : Contents}

/-- There are other contents with more nodes and edges, and with more marks on nodes other than
records of calls. -/
structure CoveredBy (c c' : Contents) : Prop extends ExtendedBy c c' where
  marks : ∀ x ∈ c.marked, x ∈ c'.marked ∨ x ∈ c.ofKind .callGraphDependency

theorem SameGraph.extendedBy (same : SameGraph c c') : c.ExtendedBy c' where
  nodes found := same.nodes ▸ found
  edges := same.edges.ge

namespace ExtendedBy

variable (extended : c.ExtendedBy c')
include extended

theorem ofKind (kind : NodeKind) : c.ofKind kind ⊆ c'.ofKind kind :=
  fun _ ⟨node, found, own⟩ => ⟨node, extended.nodes found, own⟩

theorem calls {s r t : NodeId} (calls : c.Calls s r t) : c'.Calls s r t :=
  ⟨⟨extended.edges calls.1.1, extended.ofKind _ calls.1.2⟩, extended.edges calls.2⟩

theorem callers {ids ids' : Set NodeId} (sub : ids ⊆ ids') :
    c.callers ids ⊆ c'.callers ids' := by
  rintro s ⟨r, t, mem, calls⟩
  exact ⟨r, t, sub mem, extended.calls calls⟩

theorem within {ids ids' : Set NodeId} (sub : ids ⊆ ids') (n : Nat) :
    c.within ids n ⊆ c'.within ids' n := by
  induction n with
  | zero => exact sub
  | succ n ih => exact Set.union_subset_union ih (extended.callers ih)

theorem reach {stage : Stage} {rule : Rule} (mem : rule ∈ stage.rules) {ids ids' : Set NodeId}
    (cover : ∀ x ∈ ids, x ∈ ids' ∨ x ∈ c.ofKind .callGraphDependency) :
    c.reach ids rule ⊆ c'.reach ids' rule := by
  have start {kind : NodeKind} (ne : .callGraphDependency ≠ kind) {x : NodeId}
      (own : x ∈ c.among ids kind) : x ∈ c'.among ids' kind := by
    refine ⟨(cover x own.1).resolve_right fun record => ?_, extended.ofKind kind own.2⟩
    exact not_mem_ofKind_of_ne record ne own.2
  intro x reached
  cases rule with
  | providers =>
      obtain ⟨s, own, edge⟩ := reached
      exact ⟨s, start (by decide) own, extended.edges edge⟩
  | siblings anchor sibling =>
      obtain ⟨a, own, b, edge, t, ⟨edge', kind⟩, same⟩ := reached
      have ne : .callGraphDependency ≠ anchor := by
        rintro rfl
        cases stage <;> simp [Stage.rules] at mem
      exact ⟨a, start ne own, b, extended.edges edge, t,
        ⟨extended.edges edge', extended.ofKind _ kind⟩, same⟩
  | network =>
      obtain ⟨s, own, e, serves, rest⟩ := reached
      refine ⟨s, start (by decide) own, e, extended.edges serves, rest.imp_right ?_⟩
      rintro ⟨r, ⟨called, kind⟩, rest⟩
      refine ⟨r, ⟨extended.edges called, extended.ofKind _ kind⟩, rest.imp_right ?_⟩
      rintro ⟨k, caller, rest⟩
      exact ⟨k, extended.edges caller, rest.imp_right fun exposes => extended.edges exposes⟩
  | hosts =>
      obtain ⟨m, own, edge⟩ := reached
      exact ⟨m, start (by decide) own, extended.edges edge⟩
  | residents =>
      obtain ⟨a, own, edge⟩ := reached
      exact ⟨a, start (by decide) own, extended.edges edge⟩
  | systems =>
      obtain ⟨m, own, edge⟩ := reached
      exact ⟨m, start (by decide) own, extended.edges edge⟩

theorem mark {ids ids' : Set NodeId}
    (cover : ∀ x ∈ c.marked ∪ ids, x ∈ c'.marked ∪ ids' ∨
      x ∈ c.ofKind .callGraphDependency) :
    (c.mark ids).CoveredBy (c'.mark ids') where
  nodes := extended.nodes
  edges := extended.edges
  marks := cover

/-- The closure is contained in the other one, the records of calls aside. -/
theorem closure {ids ids' : Set NodeId}
    (cover : ∀ x ∈ ids, x ∈ ids' ∨ x ∈ c.ofKind .callGraphDependency) :
    ∀ x ∈ c.closure ids, x ∈ c'.closure ids' ∨ x ∈ c.ofKind .callGraphDependency := by
  have least := (c'.isLeast_closure ids').1
  refine (c.isLeast_closure ids).2 ⟨fun x mem => (cover x mem).imp_left (@least.1 x), ?_⟩
  intro stage rule mem x reached
  exact Or.inl (least.2 stage rule mem (extended.reach mem (fun _ covered => covered) reached))

end ExtendedBy

namespace CoveredBy

theorem spread (covered : c.CoveredBy c') {stage : Stage} {rule : Rule}
    (mem : rule ∈ stage.rules) :
    (c.spread rule).CoveredBy (c'.spread rule) := by
  have reached := covered.toExtendedBy.reach mem covered.marks
  refine covered.toExtendedBy.mark fun x mem => ?_
  rcases mem with marked | new
  · exact (covered.marks x marked).imp_left Or.inl
  · exact Or.inl (Or.inr (reached new))

theorem sweep (covered : c.CoveredBy c') {rules : List Rule}
    (staged : ∀ rule ∈ rules, ∃ stage : Stage, rule ∈ stage.rules) :
    (c.sweep rules).CoveredBy (c'.sweep rules) := by
  induction rules generalizing c c' with
  | nil => exact covered
  | cons rule rest ih =>
      obtain ⟨stage, mem⟩ := staged rule List.mem_cons_self
      exact ih (covered.spread mem) fun other mem => staged other (List.mem_cons_of_mem rule mem)

theorem symbols (covered : c.CoveredBy c') :
    c.among c.marked .symbol ⊆ c'.among c'.marked .symbol := by
  rintro x ⟨marked, symbol⟩
  refine ⟨(covered.marks x marked).resolve_right fun record =>
    ?_, covered.ofKind .symbol symbol⟩
  exact not_mem_ofKind_of_ne record NodeKind.noConfusion symbol

end CoveredBy

/-- A record without a mark whose callers, wherever a symbol that it calls lies, lie no farther from
the marked symbols. -/
def PassedOver (c : Contents) (r : NodeId) : Prop :=
  r ∈ c.ofKind .callGraphDependency ∧ r ∉ c.marked ∧
    ∀ s t n, c.Calls s r t → t ∈ c.within (c.among c.marked .symbol) n →
      s ∈ c.within (c.among c.marked .symbol) n

end Contents

open Contents

namespace Propagation

variable {c c' : Contents} {config : PropagationConfig} (converge : Bool)

/-- The contents with which a propagation ends. -/
def propagated (converge : Bool) (c : Contents) : Contents :=
  if converge then converged c else (called c).sweep Stage.roundRules

theorem leads_propagate_propagated (valid : c.Valid) (unlimited : config.deadlineMs = none) :
    ∃ report, Leads (propagate config).run c (.ok report) (propagated config.converge c) := by
  cases converge : config.converge with
  | false =>
      exact ⟨_, leads_propagate_once valid converge
        (PropagationConfig.inTime_of_untimed unlimited)⟩
  | true =>
      exact leads_propagate_converge valid converge
        (PropagationConfig.inTime_of_untimed unlimited)

theorem called_subset_propagated (c : Contents) :
    (called c).marked ⊆ (propagated converge c).marked := by
  cases converge with
  | false => exact subset_sweep _
  | true => exact Set.subset_union_left

theorem ofKind_propagated (c : Contents) (kind : NodeKind) :
    (propagated converge c).ofKind kind = c.ofKind kind := by
  cases converge with
  | false =>
      obtain ⟨ids, swept⟩ := exists_sweep (c := called c) Stage.roundRules
      change ((called c).sweep Stage.roundRules).ofKind kind = c.ofKind kind
      rw [swept]
      rfl
  | true => rfl

theorem propagated_subset {ids : Set NodeId} (closed : c.Closed ids)
    (sub : (called c).marked ⊆ ids) :
    (propagated converge c).marked ⊆ ids := by
  have closed' : (called c).Closed ids := closed_mark.mpr closed
  cases converge with
  | false => exact sweep_subset closed' Stage.of_mem_roundRules sub
  | true => exact Set.union_subset sub (((called c).isLeast_closure _).2 ⟨sub, closed'⟩)

theorem among_propagated (valid : c.Valid) :
    c.among (propagated converge c).marked .callGraphDependency =
    c.among (called c).marked .callGraphDependency := by
  have closed : c.Closed {x | x ∈ c.ofKind .callGraphDependency → x ∈ (called c).marked} := by
    intro stage rule mem x reached record
    obtain ⟨kind, own, _, ne⟩ := reach_kind valid mem reached
    exact absurd (ofKind_eq own record) ne
  have sub := propagated_subset converge closed fun x mem _ => mem
  ext x
  exact ⟨fun ⟨mem, record⟩ => ⟨sub mem record, record⟩,
    fun ⟨mem, record⟩ => ⟨called_subset_propagated converge c mem, record⟩⟩

/-- In the end a record of calls is marked unless it is passed over. -/
theorem mem_propagated_iff (valid : c.Valid) {r : NodeId}
    (record : r ∈ c.ofKind .callGraphDependency) :
    r ∈ (propagated converge c).marked ↔ ¬ c.PassedOver r := by
  have ended : r ∈ (propagated converge c).marked ↔ r ∈ (called c).marked := by
    have same := Set.ext_iff.mp (among_propagated converge valid) r
    exact ⟨fun mem => (same.mp ⟨mem, record⟩).1, fun mem => (same.mpr ⟨mem, record⟩).1⟩
  rw [ended]
  constructor
  · rintro (old | ⟨n, symbol | ⟨s, outside, t, mem, calls⟩⟩) ⟨_, unmarked, near⟩
    · exact unmarked old
    · have own := valid.within_symbol Set.inter_subset_right n symbol
      exact not_mem_ofKind_of_ne record NodeKind.noConfusion own
    · exact outside (near s t n calls mem)
  · intro passes
    by_contra unmarked
    refine passes ⟨record, fun old => unmarked (Or.inl old), fun s t n calls mem => ?_⟩
    by_contra outside
    exact unmarked (Or.inr ⟨n, Or.inr ⟨s, outside, t, mem, calls⟩⟩)

end Propagation

namespace Contents.CoveredBy

open Propagation

variable {c c' : Contents} (covered : c.CoveredBy c') (valid : c.Valid)
include covered valid

theorem called : (Propagation.called c).CoveredBy (Propagation.called c') := by
  refine covered.toExtendedBy.mark fun x mem => ?_
  rcases mem with marked | ⟨n, symbol | record⟩
  · exact (covered.marks x marked).imp_left Or.inl
  · exact Or.inl (Or.inr ⟨n, Or.inl (covered.toExtendedBy.within covered.symbols n symbol)⟩)
  · exact Or.inr (valid.incoming_record _ record)

theorem propagated (converge : Bool) :
    (Propagation.propagated converge c).CoveredBy (Propagation.propagated converge c') := by
  have start := covered.called valid
  cases converge with
  | false => exact start.sweep Stage.of_mem_roundRules
  | true =>
      refine start.toExtendedBy.mark fun x mem => ?_
      rcases mem with marked | closed
      · exact (start.marks x marked).imp_left Or.inl
      · exact (start.toExtendedBy.closure start.marks x closed).imp_left Or.inr

end Contents.CoveredBy

theorem Contents.Change.marked_subset {c c' : Contents} {ids : List NodeId}
    (change : c.Change (.markNodes ids) c') : c.marked ⊆ c'.marked := by
  cases change with
  | none => exact subset_rfl
  | mark => exact Set.subset_union_left

namespace Medium

open Propagation

theorem mem_marked_of_listed (medium : Medium) {s : medium.State} (sound : medium.view.sound s)
    {kind : NodeKind} {ids : List NodeId}
    (listed : (medium.store.call (.markedNodes kind) s).1 = .ok ids) (x : NodeId) :
    x ∈ ids ↔ x ∈ (medium.view.holds s).marked ∧
      x ∈ (medium.view.holds s).ofKind kind := by
  have stepped := (medium.faithful.answers (.markedNodes kind) sound nofun).1
  have answer : (medium.store.call (.markedNodes kind) s).1 = _ :=
    (congrArg Prod.fst (Option.some.inj stepped)).symm
  rw [listed, Except.ok.injEq] at answer
  rw [answer, NodeId.mem_listed]
  rfl

theorem marked_further (medium : Medium) {s : medium.State} (sound : medium.view.sound s)
    (ids : List NodeId) :
    let s' := (medium.store.call (.markNodes ids) s).2
    medium.view.sound s' ∧ SameGraph (medium.view.holds s) (medium.view.holds s') ∧
      (medium.view.holds s).marked ⊆ (medium.view.holds s').marked := by
  obtain ⟨stepped, sound', _⟩ := medium.faithful.answers (.markNodes ids) sound nofun
  exact ⟨sound', keptByMarks.steps rfl _ _ _ stepped,
    (Tried.change (Or.inl stepped)).marked_subset⟩

theorem propagate_sound (medium : Medium) (config : PropagationConfig)
    (untimed : config.deadlineMs = none) {s : medium.State} (sound : medium.view.sound s) :
    medium.view.sound ((propagate config).run.run medium.store s).2 := by
  obtain ⟨report, leads⟩ := leads_propagate_propagated (medium.valid_of_sound sound) untimed
  obtain ⟨t, ran, _, sound'⟩ := medium.run_of_leads sound leads
  rwa [ran]

end Medium

namespace Propagation

/-- With more marks to start from, a propagation without a deadline marks every node that it marks
with fewer, except the records of calls that it passes over then. -/
theorem propagate_marks_more {config : PropagationConfig} (untimed : config.deadlineMs = none)
    {medium other : Medium} {s : medium.State} {s' : other.State} (sound : medium.view.sound s)
    (sound' : other.view.sound s') (same : SameGraph (medium.view.holds s) (other.view.holds s'))
    (more : (medium.view.holds s).marked ⊆ (other.view.holds s').marked) :
    ∃ report report' t t',
      (propagate config).run.run medium.store s = (.ok report, t) ∧
      (propagate config).run.run other.store s' = (.ok report', t') ∧
      ∀ x ∈ (medium.view.holds t).marked,
        x ∈ (other.view.holds t').marked ↔ ¬ (other.view.holds s').PassedOver x := by
  have valid := medium.valid_of_sound sound
  have valid' := other.valid_of_sound sound'
  obtain ⟨report, leads⟩ := leads_propagate_propagated valid untimed
  obtain ⟨report', leads'⟩ := leads_propagate_propagated valid' untimed
  obtain ⟨t, ran, holds, _⟩ := medium.run_of_leads sound leads
  obtain ⟨t', ran', holds', _⟩ := other.run_of_leads sound' leads'
  refine ⟨report, report', t, t', ran, ran', fun x marked => ?_⟩
  have covered : (medium.view.holds s).CoveredBy (other.view.holds s') :=
    { same.extendedBy with marks := fun x mem => Or.inl (more mem) }
  rw [holds] at marked
  rw [holds']
  -- Records of calls are treated apart: whether one is marked depends on when its caller was.
  by_cases record : x ∈ (other.view.holds s').ofKind .callGraphDependency
  · exact mem_propagated_iff _ valid' record
  · have ended := (covered.propagated valid config.converge).marks x marked
    refine iff_of_true (ended.resolve_right fun own => record ?_) fun passed => record passed.1
    rw [ofKind_propagated] at own
    exact same.extendedBy.ofKind _ own

/-- A symbol is marked first without and then with the one that calls it. -/
theorem propagate_marks_more_of_called :
    let base := (threatened.run.run Medium.database.store Medium.database.initial).2
    let s := (Medium.database.store.call (.markNodes [⟨1⟩]) base).2
    let s' := (Medium.database.store.call (.markNodes [⟨4⟩]) s).2
    ∃ report report' t t',
      (propagate {}).run.run Medium.database.store s = (.ok report, t) ∧
      (propagate {}).run.run Medium.database.store s' = (.ok report', t') ∧
      ∀ x ∈ (Medium.database.view.holds t).marked,
        x ∈ (Medium.database.view.holds t').marked ↔
        ¬ (Medium.database.view.holds s').PassedOver x := by
  intro base s s'
  have built : Medium.database.view.sound base :=
    Medium.database.sound_of_few _ (by decide +kernel)
  have sound : Medium.database.view.sound s := (Medium.database.marked_further built [⟨1⟩]).1
  obtain ⟨sound', same, more⟩ := Medium.database.marked_further sound [⟨4⟩]
  exact propagate_marks_more rfl sound sound' same more

/-- When the calling symbol is marked as well, the record of the call is left out, with and without
further rounds. -/
theorem propagate_leaves_out_record :
    let base := (threatened.run.run Medium.database.store Medium.database.initial).2
    let s := (Medium.database.store.call (.markNodes [⟨1⟩]) base).2
    let s' := (Medium.database.store.call (.markNodes [⟨4⟩]) s).2
    let after (converge : Bool) (s : Medium.database.State) : Medium.database.State :=
      ((propagate { converge := converge }).run.run Medium.database.store s).2
    Medium.database.view.sound s ∧ Medium.database.view.sound s' ∧
      SameGraph (Medium.database.view.holds s) (Medium.database.view.holds s') ∧
      (Medium.database.view.holds s).marked ⊆ (Medium.database.view.holds s').marked ∧
      ∀ converge, ¬ (Medium.database.view.holds (after converge s)).marked ⊆
        (Medium.database.view.holds (after converge s')).marked := by
  intro base s s' after
  have built : Medium.database.view.sound base :=
    Medium.database.sound_of_few _ (by decide +kernel)
  have sound : Medium.database.view.sound s := (Medium.database.marked_further built [⟨1⟩]).1
  obtain ⟨sound', same, more⟩ := Medium.database.marked_further sound [⟨4⟩]
  refine ⟨sound, sound', same, more, fun converge sub => ?_⟩
  have answers : ∀ converge,
      (Medium.database.store.call (.markedNodes .callGraphDependency) (after converge s)).1 =
        .ok [⟨5⟩] ∧
      (Medium.database.store.call (.markedNodes .callGraphDependency) (after converge s')).1 =
        .ok [] ∧
      (Medium.database.view.holds (after converge s')).node? ⟨5⟩ =
        some .callGraphDependency := by
    decide +kernel
  obtain ⟨first, second, record⟩ := answers converge
  have ended : Medium.database.view.sound (after converge s) :=
    Medium.database.propagate_sound { converge := converge } rfl sound
  have ended' : Medium.database.view.sound (after converge s') :=
    Medium.database.propagate_sound { converge := converge } rfl sound'
  have marked := ((Medium.database.mem_marked_of_listed ended first ⟨5⟩).mp (by decide)).1
  have listed := (Medium.database.mem_marked_of_listed ended' second ⟨5⟩).mpr
    ⟨sub marked, _, record, rfl⟩
  exact List.not_mem_nil listed

end Propagation

end BlastRadius
