import BlastRadius.Proofs.Inventory.Seeding
import BlastRadius.Proofs.Propagation.Rounds
import BlastRadius.Proofs.Store.Medium

/-!
What a seeded propagation of one round marks. Each stage reads the marks of those before it, but
the kinds of nodes keep them apart: what a stage reads is a union of parts that were marked for a
known reason. Earlier marks are cleared by the seed and have no influence.
-/

namespace BlastRadius

namespace Contents

variable (c : Contents)

def origins (relation : Relation) (ids : Set NodeId) : Set NodeId :=
  {x | ∃ t ∈ ids, x ∈ c.sources t relation}

def ends (relation : Relation) (ids : Set NodeId) : Set NodeId :=
  {x | ∃ s ∈ ids, x ∈ c.targets s relation}

/-- The bindings with a target among some nodes and a target of a kind. -/
def bindings (ids : Set NodeId) (kind : NodeKind) : Set NodeId :=
  {b ∈ c.origins .specializesInto ids | (c.among (c.targets b .specializesInto) kind).Nonempty}

/-- The targets of a kind that such bindings have. -/
def bound (ids : Set NodeId) (kind : NodeKind) : Set NodeId :=
  c.among (c.ends .specializesInto (c.bindings ids kind)) kind

/-- The nodes that are marked for a threatened symbol, part by part. -/
structure Blast where
  /-- The symbols that reach the threatened one by chains of calls. -/
  symbols : Set NodeId
  /-- The records by which a symbol is one call farther from it than the symbol it calls. -/
  records : Set NodeId
  libraries : Set NodeId
  /-- The components and the assets beside such a library, and the assets beside
  such a component. -/
  components : Set NodeId
  assets : Set NodeId
  componentAssets : Set NodeId
  /-- The endpoints that serve such a symbol, the dependencies that call these, their callers and
  the components that expose the callers. -/
  endpoints : Set NodeId
  dependencies : Set NodeId
  callers : Set NodeId
  exposing : Set NodeId
  hosts : Set NodeId
  residents : Set NodeId
  systems : Set NodeId

def blast (g : NodeId) : Blast :=
  let symbols :=
    {s | Relation.ReflTransGen (fun caller callee => ∃ r, c.Calls caller r callee) s g}
  let libraries := c.origins .provides symbols
  let components := c.bound libraries .component
  let assets := c.bound libraries .asset
  let componentAssets := c.bound components .asset
  let endpoints := c.origins .serves symbols
  let dependencies := c.among (c.origins .callees endpoints) .interComponentDependency
  let callers := c.ends .caller dependencies
  let exposing := c.ends .exposes callers
  let hosts := c.ends .hostedBy (components ∪ exposing)
  let residents := c.origins .hostedBy (assets ∪ componentAssets ∪ hosts)
  { symbols, libraries, components, assets, componentAssets, endpoints, dependencies, callers,
    exposing, hosts, residents
    records := {r | ∃ n, r ∈ c.incoming (c.within {g} n)}
    systems := c.origins .composedOf (components ∪ exposing ∪ residents) }

/-- Every node of a blast, with the bindings through which it goes. -/
def blasted (g : NodeId) : Set NodeId :=
  let b := c.blast g
  b.symbols ∪ b.records ∪ b.libraries ∪
    (c.bindings b.libraries .component ∪ b.components) ∪
    (c.bindings b.libraries .asset ∪ b.assets) ∪
    (c.bindings b.components .asset ∪ b.componentAssets) ∪
    (b.endpoints ∪ b.dependencies ∪ b.callers ∪ b.exposing) ∪ b.hosts ∪
      b.residents ∪ b.systems

variable {c}

theorem among_union (a b : Set NodeId) (kind : NodeKind) :
    c.among (a ∪ b) kind = c.among a kind ∪ c.among b kind :=
  Set.union_inter_distrib_right ..

theorem among_of_subset {ids : Set NodeId} {kind : NodeKind} (own : ids ⊆ c.ofKind kind)
    (other : NodeKind) : c.among ids other = if kind = other then ids else ∅ := by
  split
  next same => exact Set.inter_eq_left.mpr (same ▸ own)
  next ne =>
    refine Set.eq_empty_iff_forall_notMem.mpr fun id mem => ?_
    exact ne (ofKind_eq (own mem.1) mem.2)

theorem among_subset (ids : Set NodeId) (kind : NodeKind) : c.among ids kind ⊆ c.ofKind kind :=
  Set.inter_subset_right

theorem Valid.origins_kind (valid : c.Valid) {relation : Relation} {kind : NodeKind}
    (schema : ∀ p ∈ Relation.permitted, p.1 = relation → p.2.1 = kind) (ids : Set NodeId) :
    c.origins relation ids ⊆ c.ofKind kind := by
  rintro x ⟨t, _, edge⟩
  exact valid.source_kind schema edge

theorem Valid.ends_kind (valid : c.Valid) {relation : Relation} (source : NodeKind)
    {kind : NodeKind}
    (schema : ∀ p ∈ Relation.permitted, p.1 = relation → p.2.1 = source → p.2.2 = kind)
    {ids : Set NodeId} (own : ids ⊆ c.ofKind source) : c.ends relation ids ⊆ c.ofKind kind := by
  rintro x ⟨s, mem, edge⟩
  obtain ⟨a, b, hs, hx, permitted⟩ := valid.kinds edge
  exact schema _ permitted rfl (ofKind_eq hs (own mem)) ▸ hx

theorem Valid.bindings_kind (valid : c.Valid) (ids : Set NodeId) (kind : NodeKind) :
    c.bindings ids kind ⊆ c.ofKind .binding :=
  (Set.sep_subset _ _).trans (valid.origins_kind (by decide) ids)

theorem reach_siblings (ids : Set NodeId) (anchor sibling : NodeKind) :
    c.reach ids (.siblings anchor sibling) =
      c.bindings (c.among ids anchor) sibling ∪ c.bound (c.among ids anchor) sibling := by
  ext x
  constructor
  · rintro ⟨a, ha, b, edge, t, ht, rfl | rfl⟩
    · exact Or.inl ⟨⟨a, ha, edge⟩, t, ht⟩
    · exact Or.inr ⟨⟨b, ⟨⟨a, ha, edge⟩, x, ht⟩, ht.1⟩, ht.2⟩
  · rintro (⟨⟨a, ha, edge⟩, t, ht⟩ | ⟨⟨b, ⟨⟨a, ha, edge⟩, -⟩, ht⟩, kind⟩)
    · exact ⟨a, ha, x, edge, t, ht, Or.inl rfl⟩
    · exact ⟨a, ha, b, edge, x, ⟨ht, kind⟩, Or.inr rfl⟩

theorem reach_network (ids : Set NodeId) :
    let endpoints := c.origins .serves (c.among ids .symbol)
    let dependencies := c.among (c.origins .callees endpoints) .interComponentDependency
    let callers := c.ends .caller dependencies
    c.reach ids .network = endpoints ∪ dependencies ∪ callers ∪ c.ends .exposes callers := by
  intro endpoints dependencies callers
  ext x
  constructor
  · rintro ⟨s, hs, e, serves, rfl | ⟨r, ⟨calls, kind⟩, rest⟩⟩
    · exact Or.inl (Or.inl (Or.inl ⟨s, hs, serves⟩))
    · have dependency : r ∈ dependencies := ⟨⟨e, ⟨s, hs, serves⟩, calls⟩, kind⟩
      rcases rest with rfl | ⟨k, caller, rfl | exposes⟩
      · exact Or.inl (Or.inl (Or.inr dependency))
      · exact Or.inl (Or.inr ⟨r, dependency, caller⟩)
      · exact Or.inr ⟨k, ⟨r, dependency, caller⟩, exposes⟩
  · rintro (((⟨s, hs, serves⟩ | ⟨⟨e, ⟨s, hs, serves⟩, calls⟩, kind⟩) |
      ⟨r, ⟨⟨e, ⟨s, hs, serves⟩, calls⟩, kind⟩, caller⟩) |
      ⟨k, ⟨r, ⟨⟨e, ⟨s, hs, serves⟩, calls⟩, kind⟩, caller⟩, exposes⟩)
    · exact ⟨s, hs, x, serves, Or.inl rfl⟩
    · exact ⟨s, hs, e, serves, Or.inr ⟨x, ⟨calls, kind⟩, Or.inl rfl⟩⟩
    · exact ⟨s, hs, e, serves, Or.inr ⟨r, ⟨calls, kind⟩,
        Or.inr ⟨x, caller, Or.inl rfl⟩⟩⟩
    · exact ⟨s, hs, e, serves, Or.inr ⟨r, ⟨calls, kind⟩,
        Or.inr ⟨k, caller, Or.inr exposes⟩⟩⟩

theorem reach_providers (ids : Set NodeId) :
    c.reach ids .providers = c.origins .provides (c.among ids .symbol) := rfl

theorem reach_hosts (ids : Set NodeId) :
    c.reach ids .hosts = c.ends .hostedBy (c.among ids .component) := rfl

theorem reach_residents (ids : Set NodeId) :
    c.reach ids .residents = c.origins .hostedBy (c.among ids .asset) := rfl

theorem reach_systems (ids : Set NodeId) :
    c.reach ids .systems = c.origins .composedOf (c.among ids .component) := rfl

theorem sweep_nil (c : Contents) : c.sweep [] = c := rfl

theorem spread_mark (c : Contents) (ids : Set NodeId) (rule : Rule) :
    (c.unmarked.mark ids).spread rule = c.unmarked.mark (ids ∪ c.reach ids rule) := by
  have marked : (c.unmarked.mark ids).marked = ids := Set.empty_union ids
  rw [spread, marked, mark_mark, reach_mark]
  cases rule <;> rfl

theorem unmarked_mark_marked (c : Contents) : c.unmarked.mark c.marked = c :=
  Contents.ext rfl rfl (Set.empty_union _)

theorem callClosure_unmarked (c : Contents) (ids : Set NodeId) :
    c.unmarked.callClosure ids = c.callClosure ids := by
  rw [← callClosure_mark c.marked, unmarked_mark_marked]

theorem callClosure_singleton (c : Contents) (g : NodeId) :
    c.callClosure {g} = (c.blast g).symbols ∪ (c.blast g).records := by
  have symbols (s : NodeId) : (∃ n, s ∈ c.within {g} n) ↔ s ∈ (c.blast g).symbols := by
    rw [mem_within_iff]
    simp [blast]
  ext x
  rw [Set.mem_union, ← symbols]
  exact exists_or

/-- The nodes of a blast have the kinds that their names say. -/
structure Blast.Kinds (c : Contents) (b : Blast) : Prop where
  symbols : b.symbols ⊆ c.ofKind .symbol
  records : b.records ⊆ c.ofKind .callGraphDependency
  libraries : b.libraries ⊆ c.ofKind .library
  components : b.components ⊆ c.ofKind .component
  assets : b.assets ⊆ c.ofKind .asset
  componentAssets : b.componentAssets ⊆ c.ofKind .asset
  endpoints : b.endpoints ⊆ c.ofKind .endpoint
  dependencies : b.dependencies ⊆ c.ofKind .interComponentDependency
  callers : b.callers ⊆ c.ofKind .endpoint
  exposing : b.exposing ⊆ c.ofKind .component
  hosts : b.hosts ⊆ c.ofKind .asset
  residents : b.residents ⊆ c.ofKind .component

theorem Valid.blast_kinds (valid : c.Valid) {g : NodeId} (symbol : g ∈ c.ofKind .symbol) :
    Blast.Kinds c (c.blast g) := by
  have callers : (c.blast g).callers ⊆ c.ofKind .endpoint :=
    valid.ends_kind .interComponentDependency (by decide) (among_subset ..)
  have exposing : (c.blast g).exposing ⊆ c.ofKind .component :=
    valid.ends_kind .endpoint (by decide) callers
  have hosts : (c.blast g).hosts ⊆ c.ofKind .asset :=
    valid.ends_kind .component (by decide) (Set.union_subset (among_subset ..) exposing)
  refine
    { symbols := ?_, records := ?_, callers, exposing, hosts
      libraries := valid.origins_kind (by decide) _
      components := among_subset ..
      assets := among_subset ..
      componentAssets := among_subset ..
      endpoints := valid.origins_kind (by decide) _
      dependencies := among_subset ..
      residents := valid.origins_kind (by decide) _ }
  · intro s chain
    obtain ⟨n, mem⟩ := (mem_within_iff {g} s).mpr ⟨g, rfl, chain⟩
    exact valid.within_symbol (Set.singleton_subset_iff.mpr symbol) n mem
  · rintro r ⟨n, mem⟩
    exact valid.incoming_record _ mem

/-- The closure of calls and one round mark the blast of the only marked symbol. -/
theorem sweep_called (valid : c.Valid) {g : NodeId} (symbol : g ∈ c.ofKind .symbol) :
    (Propagation.called (c.unmarked.mark {g})).sweep Stage.roundRules =
      c.unmarked.mark (c.blasted g) := by
  have kinds := valid.blast_kinds symbol
  have start : Propagation.called (c.unmarked.mark {g}) =
      c.unmarked.mark ((c.blast g).symbols ∪ (c.blast g).records) := by
    have seed : (c.unmarked.mark {g}).among (c.unmarked.mark {g}).marked .symbol = {g} := by
      change (∅ ∪ {g}) ∩ c.ofKind .symbol = {g}
      rw [Set.empty_union]
      exact Set.inter_eq_left.mpr (Set.singleton_subset_iff.mpr symbol)
    have inside : {g} ⊆ c.callClosure {g} := fun x mem => ⟨0, Or.inl mem⟩
    rw [Propagation.called, seed, callClosure_mark, callClosure_unmarked, mark_mark,
      Set.union_eq_right.mpr inside, callClosure_singleton]
  have rules : Stage.roundRules = [.providers, .siblings .library .component,
    .siblings .library .asset, .siblings .component .asset, .network, .hosts, .residents,
    .systems] := rfl
  have libraries : c.origins .provides (c.blast g).symbols = (c.blast g).libraries := rfl
  have components : c.bound (c.blast g).libraries .component = (c.blast g).components := rfl
  have assets : c.bound (c.blast g).libraries .asset = (c.blast g).assets := rfl
  have componentAssets : c.bound (c.blast g).components .asset = (c.blast g).componentAssets := rfl
  have endpoints : c.origins .serves (c.blast g).symbols = (c.blast g).endpoints := rfl
  have dependencies : c.among (c.origins .callees (c.blast g).endpoints) .interComponentDependency =
    (c.blast g).dependencies := rfl
  have callers : c.ends .caller (c.blast g).dependencies = (c.blast g).callers := rfl
  have exposing : c.ends .exposes (c.blast g).callers = (c.blast g).exposing := rfl
  have hosts : c.ends .hostedBy ((c.blast g).components ∪ (c.blast g).exposing) =
    (c.blast g).hosts := rfl
  have residents : c.origins .hostedBy
    ((c.blast g).assets ∪ (c.blast g).componentAssets ∪ (c.blast g).hosts) =
      (c.blast g).residents := rfl
  have systems : c.origins .composedOf
    ((c.blast g).components ∪ (c.blast g).exposing ∪ (c.blast g).residents) =
      (c.blast g).systems := rfl
  have bindings (ids : Set NodeId) (kind : NodeKind) :=
    among_of_subset (valid.bindings_kind ids kind)
  rw [start, rules, blasted]
  simp only [sweep_cons, sweep_nil, spread_mark, reach_providers, reach_siblings, reach_network,
    reach_hosts, reach_residents, reach_systems, among_union, among_of_subset kinds.symbols,
    among_of_subset kinds.records, among_of_subset kinds.libraries,
    among_of_subset kinds.components, among_of_subset kinds.assets,
    among_of_subset kinds.componentAssets,
    among_of_subset kinds.endpoints, among_of_subset kinds.dependencies,
    among_of_subset kinds.callers, among_of_subset kinds.exposing, among_of_subset kinds.hosts,
    among_of_subset kinds.residents, bindings, reduceCtorEq, if_true, if_false, Set.union_empty,
    Set.empty_union, libraries, components, assets, componentAssets, endpoints, dependencies,
    callers, exposing, hosts, residents, systems]

end Contents

namespace Propagation

variable {c : Contents} {config : PropagationConfig} {identity : Option String}

theorem leads_run_seeded (valid : c.Valid) {v g : NodeId}
    (leastV : IsLeast (c.vulnerabilities identity) v) (leastG : IsLeast (c.targets v .threatens) g)
    {report : PropagationReport} {c' : Contents}
    (propagated : Leads (propagate config).run (c.unmarked.mark {g}) (.ok report) c') :
    Leads (run config identity).run c
      (.ok { report with vulnerability := some v, seed := some g }) c' :=
  (Inventory.leads_seed valid leastV leastG).bind (propagated.bind (.pure _))

theorem leads_run_once (valid : c.Valid) (once : config.converge = false)
    (unlimited : config.deadlineMs = none) {v g : NodeId}
    (leastV : IsLeast (c.vulnerabilities identity) v)
    (leastG : IsLeast (c.targets v .threatens) g) :
    ∃ report, Leads (run config identity).run c (.ok report) (c.unmarked.mark (c.blasted g)) ∧
      report.vulnerability = some v ∧ report.seed = some g := by
  have symbol := valid.threatened leastG.1
  have valid' : (c.unmarked.mark {g}).Valid := valid.unmarked.mark
    (Set.singleton_subset_iff.mpr (Contents.ofKind_subset_live _ symbol))
  have propagated := leads_propagate_once valid' once
      (PropagationConfig.inTime_of_untimed unlimited)
  rw [Contents.sweep_called valid symbol] at propagated
  exact ⟨{ reportOf .. with vulnerability := some v, seed := some g },
    leads_run_seeded valid leastV leastG propagated, rfl, rfl⟩

theorem leads_run_error
    (none : ∀ v, IsLeast (c.vulnerabilities identity) v → c.targets v .threatens = ∅) :
    ∃ error, Leads (run config identity).run c (.error error) c := by
  by_cases unknown : c.vulnerabilities identity = ∅
  · exact ⟨_, (Inventory.leads_seed_notFound unknown).bind_error⟩
  · obtain ⟨v, least⟩ := NodeId.exists_isLeast unknown
    exact ⟨_, (Inventory.leads_seed_invalid least (none v least)).bind_error⟩

/-- A seeded propagation of one round that succeeds leaves exactly the blast of the least symbol
that the least vulnerability of the identity threatens, whatever was marked before. -/
theorem run_once_marks_blast (medium : Medium) {s s' : medium.State} (sound : medium.view.sound s)
    {report : PropagationReport}
    (ran : (run { converge := false, deadlineMs := none } identity).run.run medium.store s =
      (.ok report, s')) :
    ∃ v g, IsLeast ((medium.view.holds s).vulnerabilities identity) v ∧
      IsLeast ((medium.view.holds s).targets v .threatens) g ∧
      report.vulnerability = some v ∧ report.seed = some g ∧
      medium.view.holds s' = { medium.view.holds s with
        marked := (medium.view.holds s).blasted g } := by
  have valid : (medium.view.holds s).Valid := medium.valid_of_sound sound
  have outcome {result : Except ImpactError PropagationReport} {c' : Contents}
      (leads : Leads (run { converge := false, deadlineMs := none } identity).run
        (medium.view.holds s) result c') : result = .ok report ∧ medium.view.holds s' = c' := by
    obtain ⟨after, answer, holds, _⟩ := medium.run_of_leads sound leads
    rw [ran, Prod.mk.injEq] at answer
    obtain ⟨answer, rfl⟩ := answer
    exact ⟨answer.symm, holds⟩
  by_cases possible : ∀ v, IsLeast ((medium.view.holds s).vulnerabilities identity) v →
      (medium.view.holds s).targets v .threatens = ∅
  · obtain ⟨error, leads⟩ := leads_run_error possible
    cases (outcome leads).1
  · obtain ⟨v, possible⟩ := not_forall.mp possible
    obtain ⟨leastV, threatens⟩ := Classical.not_imp.mp possible
    obtain ⟨g, leastG⟩ := NodeId.exists_isLeast threatens
    have once : PropagationConfig.converge { converge := false, deadlineMs := none } = false := rfl
    obtain ⟨seeded, leads, vulnerability, seed⟩ := leads_run_once valid once rfl leastV leastG
    obtain ⟨same, holds⟩ := outcome leads
    cases same
    refine ⟨v, g, leastV, leastG, vulnerability, seed, holds.trans ?_⟩
    exact Contents.ext rfl rfl (Set.empty_union _)

/-- A threatened symbol with a library that provides it and a symbol that calls it. -/
def threatened : StoreProgram Unit := do
  let symbol ← StoreProgram.call (.insertNode (.symbol "parse"))
  let vulnerability ← StoreProgram.call (.insertNode (.vulnerability none))
  let library ← StoreProgram.call (.insertNode (.library ⟨"parser", "1.0"⟩))
  let caller ← StoreProgram.call (.insertNode (.symbol "main"))
  let record ← StoreProgram.call (.insertNode .callGraphDependency)
  let _ ← StoreProgram.call (.insertEdge ⟨vulnerability, .threatens, symbol⟩)
  let _ ← StoreProgram.call (.insertEdge ⟨library, .provides, symbol⟩)
  let _ ← StoreProgram.call (.insertEdge ⟨record, .caller, caller⟩)
  let _ ← StoreProgram.call (.insertEdge ⟨record, .callees, symbol⟩)

theorem run_once_marks_blast_of_threatened :
    let s := (threatened.run.run Memory.store {}).2
    ∃ report s', (run { converge := false, deadlineMs := none } none).run.run Memory.store s =
        (.ok report, s') ∧
      ∃ v g, IsLeast (s.graph.contents.vulnerabilities none) v ∧
        IsLeast (s.graph.contents.targets v .threatens) g ∧
        report.vulnerability = some v ∧ report.seed = some g ∧
        s'.graph.contents = { s.graph.contents with marked := s.graph.contents.blasted g } := by
  intro s
  have sound : Medium.memory.view.sound s := Medium.memory.sound_of_few _ (by decide +kernel)
  have succeeds : ((run { converge := false, deadlineMs := none } none).run.run
    Memory.store s).1.isOk = true := by decide +kernel
  rcases ran : (run { converge := false, deadlineMs := none } none).run.run
    Memory.store s with ⟨error | report, s'⟩
  · rw [ran] at succeeds
    cases succeeds
  · exact ⟨report, s', rfl, run_once_marks_blast .memory sound ran⟩

end Propagation

end BlastRadius
