import BlastRadius.Proofs.Inventory.Registration
import BlastRadius.Proofs.Parity.Dependencies
import BlastRadius.Proofs.Parity.Propagation
import BlastRadius.Proofs.Propagation.SinglePass

/-!
What vulnerabilities threaten. A vulnerability is registered together with the edge to the
one symbol that it threatens, and the edge goes only with one of its ends. When the symbols
are removed and the vulnerability is not, no propagation can be seeded with it any more, and
its identity stays taken.
-/

namespace BlastRadius

namespace Contents

variable {c c' c'' : Contents} {q : Call}

/-- Valid contents in which an identity belongs to one vulnerability, and this threatens no
more than one symbol. -/
structure Registered (c : Contents) : Prop where
  valid : c.Valid
  identities : ∀ identity, {v | c.node? v = some (.vulnerability identity)}.Subsingleton
  threats : ∀ v ∈ c.ofKind .vulnerability, (c.targets v .threatens).Subsingleton

/-- Vulnerabilities stay and threaten what they did, and a new one threatens something. -/
structure ThreatsKept (c c' : Contents) : Prop where
  registered : c'.Registered
  stay : ∀ v ∈ c.ofKind .vulnerability, v ∈ c'.ofKind .vulnerability
  targets : ∀ v ∈ c.ofKind .vulnerability, c'.targets v .threatens = c.targets v .threatens
  new : ∀ v ∈ c'.ofKind .vulnerability, v ∉ c.ofKind .vulnerability →
    (c'.targets v .threatens).Nonempty

/-- The same, of contents with well registered vulnerabilities. -/
def ThreatsStay (c c' : Contents) : Prop := c.Registered → c.ThreatsKept c'

namespace ThreatsKept

theorem of_same (registered : c.Registered) (valid : c'.Valid)
    (vulnerabilities : ∀ v identity, c'.node? v = some (.vulnerability identity) ↔
      c.node? v = some (.vulnerability identity))
    (targets : ∀ v, c'.targets v .threatens = c.targets v .threatens) : c.ThreatsKept c' := by
  have same (v : NodeId) : v ∈ c'.ofKind .vulnerability ↔ v ∈ c.ofKind .vulnerability := by
    constructor
    · rintro ⟨node, found, own⟩
      obtain ⟨identity, rfl⟩ := Node.eq_vulnerability_of_kind own
      exact ⟨_, (vulnerabilities v identity).mp found, rfl⟩
    · rintro ⟨node, found, own⟩
      obtain ⟨identity, rfl⟩ := Node.eq_vulnerability_of_kind own
      exact ⟨_, (vulnerabilities v identity).mpr found, rfl⟩
  refine ⟨⟨valid, fun identity => ?_, fun v own => ?_⟩, fun v own => (same v).mpr own,
    fun v _ => targets v, fun v own new => absurd ((same v).mp own) new⟩
  · simp only [vulnerabilities]
    exact registered.identities identity
  · rw [targets]
    exact registered.threats v ((same v).mp own)

theorem refl (registered : c.Registered) : c.ThreatsKept c :=
  of_same registered registered.valid (fun _ _ => Iff.rfl) fun _ => rfl

theorem trans (first : c.ThreatsKept c') (second : c'.ThreatsKept c'') : c.ThreatsKept c'' where
  registered := second.registered
  stay v own := second.stay v (first.stay v own)
  targets v own := (second.targets v (first.stay v own)).trans (first.targets v own)
  new v own new := by
    by_cases old : v ∈ c'.ofKind .vulnerability
    · rw [second.targets v old]
      exact first.new v old new
    · exact second.new v own old

end ThreatsKept

theorem Change.threatsKept (change : c.Change q c') (registered : c.Registered)
    (frame : q.touches .vulnerability .threatens = false) : c.ThreatsKept c' := by
  obtain ⟨nodes, edges⟩ := change.untouched frame
  exact .of_same registered (change.valid registered.valid)
    (fun v identity => nodes v (.vulnerability identity) rfl) fun v => Set.ext fun t => edges v t

theorem threatsKept_inserted (registered : c.Registered) {v g : NodeId} {identity : Option String}
    (fresh : c.node? v = none) (symbol : g ∈ c.ofKind .symbol)
    (keys : ∀ key, (Node.vulnerability identity).key? = some key → c.keyed key = ∅)
    (free : ∀ other, c.node? other ≠ some (.vulnerability identity)) :
    c.ThreatsKept ((c.insert v (.vulnerability identity)).link ⟨v, .threatens, g⟩) := by
  rw [link_eq_linkAll]
  have allowed : {g} ⊆ c.allowed .vulnerability .threatens :=
    Set.singleton_subset_iff.mpr ⟨.symbol, symbol, rfl⟩
  have valid' : ((c.insert v (.vulnerability identity)).linkAll v .threatens {g}).Valid :=
    (registered.valid.insert fresh keys).linkAll ⟨_, insert_node?_self v _, rfl⟩
      (allowed_insert fresh allowed)
  have targets (other : NodeId) :=
    registered.valid.targets_linked fresh (.vulnerability identity) .threatens {g} other
  have kept {other : NodeId} (ne : other ≠ v) := (targets other).trans (if_neg ne)
  have new := (targets v).trans (if_pos rfl)
  have old {other : NodeId} (own : other ∈ c.ofKind .vulnerability) : other ≠ v := by
    rintro rfl
    exact not_mem_live.mpr fresh (ofKind_subset_live _ own)
  have vulnerabilities (other : NodeId) :
      other ∈ (c.insert v (.vulnerability identity)).ofKind .vulnerability ↔
        other ∈ c.ofKind .vulnerability ∨ other = v := by
    rw [mem_ofKind_insert fresh]
    exact or_congr Iff.rfl (and_iff_left rfl)
  have held {x : NodeId} {given : Option String}
      (hx : (c.insert v (.vulnerability identity)).node? x = some (.vulnerability given)) :
      x = v ∧ identity = given ∨ c.node? x = some (.vulnerability given) := by
    by_cases same : x = v
    · rw [same, insert_node?_self, Option.some.injEq, Node.vulnerability.injEq] at hx
      exact Or.inl ⟨same, hx⟩
    · rw [insert_node?_of_ne _ same] at hx
      exact Or.inr hx
  refine ⟨⟨valid', fun given a ha b hb => ?_, fun other own => ?_⟩,
    fun other own => (vulnerabilities other).mpr (Or.inl own), fun other own => kept (old own),
    fun other own fresh' => ?_⟩
  · rcases held ha with ⟨sameA, rfl⟩ | ha <;> rcases held hb with ⟨sameB, same⟩ | hb
    · exact sameA.trans sameB.symm
    · exact absurd hb (free b)
    · exact absurd ha (same ▸ free a)
    · exact registered.identities given ha hb
  · rcases (vulnerabilities other).mp own with own | rfl
    · rw [kept (old own)]
      exact registered.threats other own
    · rw [new]
      exact Set.subsingleton_singleton
  · obtain rfl := ((vulnerabilities other).mp own).resolve_left fresh'
    rw [new]
    exact Set.singleton_nonempty g

end Contents

open Contents

theorem registering_threatsKept (identity : Option String) (symbol : String) :
    KeepsBlock ThreatsStay (Inventory.registering identity symbol) := by
  intro c x c' ran registered
  rcases registering_cases registered.valid ran with
    ⟨v, _, rfl, rfl⟩ | ⟨none, ⟨_, rfl, rfl⟩ | ⟨g, ⟨node, found, key⟩, created⟩⟩
  · exact .refl registered
  · exact .refl registered
  · rcases created with ⟨v, fresh, keys, rfl, rfl⟩ | ⟨row, rfl, _⟩
    · have own : g ∈ c.ofKind .symbol := ⟨node, found, (Node.kind_of_key? key).symm⟩
      have live : {g} ⊆ c.live := Set.singleton_subset_iff.mpr (mem_live found)
      have marked : c.ThreatsKept (c.mark {g}) :=
        .of_same registered (registered.valid.mark live) (fun _ _ => Iff.rfl) fun _ => rfl
      exact marked.trans
        (threatsKept_inserted marked.registered fresh own keys (free_of_matching none))
    · exact .refl registered

theorem kept_threats : Kept ThreatsStay := by
  have refl (c : Contents) : c.ThreatsStay c := .refl
  have trans {a b c : Contents} (first : a.ThreatsStay b) (second : b.ThreatsStay c) :
      a.ThreatsStay c := fun registered =>
    (first registered).trans (second (first registered).registered)
  have call {q : Call} (frame : q.touches .vulnerability .threatens = false) :
      Keeps ThreatsStay (StoreProgram.call q) :=
    keeps_call fun change registered => change.threatsKept registered frame
  refine ⟨refl, trans, fun plain change registered => ?_, fun owner _ => ?_, fun request => ?_,
    fun identity symbol => registering_threatsKept _ symbol⟩
  · exact change.threatsKept registered (Call.untouched_of_plain plain).2.2
  · exact keeps_exposing refl trans (call rfl) fun _ => call rfl
  · exact keeps_recording refl trans (call rfl) fun _ _ => call rfl

namespace Contents

variable {c : Contents} {kinds : List NodeKind} {v : NodeId}

theorem Registered.withoutAll (registered : c.Registered) (kinds : List NodeKind) :
    (c.withoutAll kinds).Registered where
  valid := registered.valid.withoutAll kinds
  identities identity :=
    (registered.identities identity).anti fun _ found => (withoutAll_node?.mp found).1
  threats v own := (registered.threats v (mem_withoutAll_ofKind.mp own).1).anti fun _ edge =>
    withoutAll_edges kinds edge

theorem empty_registered : empty.Registered where
  valid := empty_valid
  identities _ := fun _ found => by cases found
  threats _ := fun ⟨_, found, _⟩ => by cases found

/-- A vulnerability threatens nothing. -/
structure Idle (c : Contents) (v : NodeId) : Prop where
  vulnerability : v ∈ c.ofKind .vulnerability
  targets : c.targets v .threatens = ∅

theorem idle_withoutAll (valid : c.Valid) : (c.withoutAll kinds).Idle v ↔
    c.Idle v ∧ .vulnerability ∉ kinds ∨
      v ∈ c.ofKind .vulnerability ∧ .symbol ∈ kinds ∧ .vulnerability ∉ kinds := by
  have stay (own : v ∈ c.ofKind .vulnerability) (kept : .vulnerability ∉ kinds) (t : NodeId) :
      t ∈ (c.withoutAll kinds).targets v .threatens ↔
        t ∈ c.targets v .threatens ∧ .symbol ∉ kinds := by
    refine mem_withoutAll_edges.trans (and_congr_right fun edge => ?_)
    have symbol := valid.threatened edge
    constructor
    · exact fun other removed => (other .symbol removed).2 symbol
    · refine fun spared kind removed => ⟨fun own' => kept ?_, fun own' => spared ?_⟩
      · exact ofKind_eq own' own ▸ removed
      · exact ofKind_eq own' symbol ▸ removed
  constructor
  · rintro ⟨own, none⟩
    obtain ⟨own, kept⟩ := mem_withoutAll_ofKind.mp own
    by_cases removed : .symbol ∈ kinds
    · exact Or.inr ⟨own, removed, kept⟩
    · refine Or.inl ⟨⟨own, Set.eq_empty_iff_forall_notMem.mpr fun t edge => ?_⟩, kept⟩
      exact Set.notMem_empty t (none ▸ (stay own kept t).mpr ⟨edge, removed⟩)
  · rintro (⟨⟨own, none⟩, kept⟩ | ⟨own, removed, kept⟩)
    · refine ⟨mem_withoutAll_ofKind.mpr ⟨own, kept⟩,
        Set.eq_empty_iff_forall_notMem.mpr fun t edge => ?_⟩
      exact Set.notMem_empty t (none ▸ ((stay own kept t).mp edge).1)
    · refine ⟨mem_withoutAll_ofKind.mpr ⟨own, kept⟩,
        Set.eq_empty_iff_forall_notMem.mpr fun t edge => ?_⟩
      exact ((stay own kept t).mp edge).2 removed

end Contents

namespace Medium

variable {medium : Medium} {operations : List Operation} {operation : Operation} {v : NodeId}

theorem contents_registered (fits : medium.Fits operations) :
    (medium.contents operations).Registered := by
  induction operations using List.reverseRecOn with
  | nil =>
      rw [contents_nil]
      exact empty_registered
  | append_singleton before operation ih =>
      have registered := ih (fits.before (List.prefix_append _ _))
      by_cases removes : operation.removed = []
      · exact (contents_kept kept_threats fits removes registered).registered
      · rw [contents_removed fits removes]
        exact registered.withoutAll _

theorem idle_step (fits : medium.Fits (operations ++ [operation])) :
    (medium.contents (operations ++ [operation])).Idle v ↔
      (medium.contents operations).Idle v ∧ .vulnerability ∉ operation.removed ∨
        v ∈ (medium.contents operations).ofKind .vulnerability ∧
          .symbol ∈ operation.removed ∧ .vulnerability ∉ operation.removed := by
  have registered := contents_registered (fits.before (List.prefix_append _ _))
  by_cases removes : operation.removed = []
  · have kept := contents_kept kept_threats fits removes registered
    rw [removes, or_iff_left fun ⟨_, removed, _⟩ => List.not_mem_nil removed,
      and_iff_left List.not_mem_nil]
    constructor
    · rintro ⟨own, none⟩
      have old : v ∈ (medium.contents operations).ofKind .vulnerability := by
        by_contra new
        exact (kept.new v own new).ne_empty none
      exact ⟨old, (kept.targets v old).symm.trans none⟩
    · rintro ⟨own, none⟩
      exact ⟨kept.stay v own, (kept.targets v own).trans none⟩
  · rw [contents_removed fits removes, idle_withoutAll registered.valid]

/-- A vulnerability threatens nothing when it has outlasted a removal of the symbols. -/
theorem idle_iff (fits : medium.Fits operations) :
    (medium.contents operations).Idle v ↔
      ∃ before operation after, operations = before ++ operation :: after ∧
        (v ∈ (medium.contents before).ofKind .vulnerability ∧
          .symbol ∈ operation.removed ∧ .vulnerability ∉ operation.removed) ∧
          ∀ later ∈ after, .vulnerability ∉ later.removed := by
  refine since_iff (P := fun l => (medium.contents l).Idle v)
    (S := fun l operation => v ∈ (medium.contents l).ofKind .vulnerability ∧
      .symbol ∈ operation.removed ∧ .vulnerability ∉ operation.removed)
    (Q := fun operation => .vulnerability ∉ operation.removed) ?_ fun before operation among => ?_
  · rintro ⟨⟨_, found, _⟩, _⟩
    rw [contents_nil] at found
    cases found
  · exact idle_step (fits.before among)

end Medium

variable {c : Contents} (config : PropagationConfig) {identity : Option String} {v g : NodeId}

/-- A propagation that can be seeded fails only when its time is up. -/
theorem exists_leads_run_timely (valid : c.Valid) (leastV : IsLeast (c.vulnerabilities identity) v)
    (leastG : IsLeast (c.targets v .threatens) g) :
    ∃ result c', Leads (Operation.run config identity).perform.run c result c' ∧
      ∀ error, result = .error error → Propagation.TooLate error := by
  have seeded := Inventory.leads_seed valid leastV leastG
  have live := Set.singleton_subset_iff.mpr
    (ofKind_subset_live _ (valid.threatened leastG.1))
  have valid' : (c.unmarked.mark {g}).Valid := valid.unmarked.mark live
  obtain ⟨result, c', propagated, timely⟩ := Propagation.leads_propagate_timed valid' config
  cases result with
  | ok report =>
      exact ⟨_, c', (Propagation.leads_run_seeded valid leastV leastG propagated).map _, nofun⟩
  | error error =>
      refine ⟨_, c', (seeded.bind propagated.bind_error).map_error _, ?_⟩
      rintro _ ⟨⟩
      exact timely error rfl

theorem exists_leads_run_seeded (valid : c.Valid) (leastV : IsLeast (c.vulnerabilities identity) v)
    (leastG : IsLeast (c.targets v .threatens) g) :
    ∃ result c', Leads (Operation.run config identity).perform.run c result c' ∧
      ∀ reason, result ≠ .error (.invalid reason) := by
  obtain ⟨result, c', leads, timely⟩ := exists_leads_run_timely config valid leastV leastG
  refine ⟨result, c', leads, fun reason failed => ?_⟩
  obtain ⟨stage, absurd⟩ := timely _ failed
  cases absurd

theorem leads_run_idle (leastV : IsLeast (c.vulnerabilities identity) v)
    (none : c.targets v .threatens = ∅) :
    Leads (Operation.run config identity).perform.run c
      (.error (.invalid s!"vulnerability {v} threatens no symbol")) c :=
  (Inventory.leads_seed_invalid leastV none).bind_error.map_error _

theorem Operation.leaves_threats_iff {operation : Operation}
    (whole : ∀ kinds, operation ≠ .resetKinds kinds) :
    .symbol ∈ operation.removed ∧ .vulnerability ∉ operation.removed ↔
      operation = .resetDomain .callGraph := by
  cases operation with
  | resetKinds kinds => exact absurd rfl (whole kinds)
  | resetDomain domain => cases domain <;> decide
  | reset => decide
  | _ => simp [Operation.removed]

theorem Operation.leaves_vulnerabilities_iff {operation : Operation}
    (whole : ∀ kinds, operation ≠ .resetKinds kinds) :
    .vulnerability ∉ operation.removed ↔ operation ≠ .reset := by
  cases operation with
  | resetKinds kinds => exact absurd rfl (whole kinds)
  | resetDomain domain => cases domain <;> decide
  | reset => decide
  | _ => simp [Operation.removed]

namespace Medium

variable {medium : Medium} {operations : List Operation}

theorem idle_iff_callGraph (fits : medium.Fits operations)
    (whole : ∀ kinds, Operation.resetKinds kinds ∉ operations) :
    (medium.contents operations).Idle v ↔
      ∃ before after, operations = before ++ .resetDomain .callGraph :: after ∧
        v ∈ (medium.contents before).ofKind .vulnerability ∧ .reset ∉ after := by
  have other {operation : Operation} (mem : operation ∈ operations) (kinds : List NodeKind) :
      operation ≠ .resetKinds kinds := fun same => whole kinds (same ▸ mem)
  rw [idle_iff fits]
  constructor
  · rintro ⟨before, operation, after, rfl, ⟨own, removed⟩, kept⟩
    obtain rfl := (Operation.leaves_threats_iff (other (by simp))).mp removed
    refine ⟨before, after, rfl, own, fun mem => ?_⟩
    exact kept _ mem (by decide)
  · rintro ⟨before, after, rfl, own, kept⟩
    refine ⟨before, _, after, rfl, ⟨own, by decide⟩, fun later mem => ?_⟩
    exact (Operation.leaves_vulnerabilities_iff (other (by simp [mem]))).mpr
      fun same => kept (same ▸ mem)

/-- Where kinds of node are removed only as domains or all together, a vulnerability threatens
exactly one symbol and can be propagated from, unless the call graph was removed while it was there.
After that it threatens nothing and no propagation from it is possible. -/
theorem vulnerability_seedable_iff (medium : Medium) {operations : List Operation}
    (fits : medium.Fits operations) (whole : ∀ kinds, Operation.resetKinds kinds ∉ operations)
    {v : NodeId} {identity : Option String}
    (found : (medium.contents operations).node? v = some (.vulnerability identity)) :
    let outlasted := ∃ before after, operations = before ++ .resetDomain .callGraph :: after ∧
      v ∈ (medium.contents before).ofKind .vulnerability ∧ .reset ∉ after
    let ran (config : PropagationConfig) (given : Option String) :=
      ((Operation.run config given).on medium.store (medium.reached operations)).1
    (¬ outlasted →
      (∃ g ∈ (medium.contents operations).ofKind .symbol,
        (medium.contents operations).targets v .threatens = {g}) ∧
      ∀ config given, Inventory.normalized given = identity →
        ∀ reason, ran config given ≠ .error (.invalid reason)) ∧
    (outlasted →
      (medium.contents operations).targets v .threatens = ∅ ∧
      ∀ config given, Inventory.normalized given = identity →
        ran config given = .error (.invalid s!"vulnerability {v} threatens no symbol")) := by
  intro outlasted ran
  have registered := contents_registered fits
  have own : v ∈ (medium.contents operations).ofKind .vulnerability := ⟨_, found, rfl⟩
  have least {given : Option String} (same : Inventory.normalized given = identity) :
      IsLeast ((medium.contents operations).vulnerabilities given) v := by
    subst same
    exact ⟨found, fun other mem => (registered.identities _ found mem).le⟩
  have answer {config : PropagationConfig} {given : Option String} {c' : Contents}
      {result : Except ImpactError Answer}
      (leads : Leads (Operation.run config given).perform.run (medium.contents operations)
        result c') :
      ran config given = result := by
    obtain ⟨_, same, _⟩ := medium.run_of_leads (reached_sound fits) leads
    exact congrArg Prod.fst same
  constructor
  · intro young
    have threatens : ((medium.contents operations).targets v .threatens).Nonempty :=
      Set.nonempty_iff_ne_empty.mpr fun none =>
        young ((idle_iff_callGraph fits whole).mp ⟨own, none⟩)
    obtain ⟨g, mem⟩ := threatens
    have one := (registered.threats v own).eq_singleton_of_mem mem
    refine ⟨⟨g, registered.valid.threatened mem, one⟩,
      fun config given same reason failed => ?_⟩
    obtain ⟨result, c', leads, valid⟩ := exists_leads_run_seeded config registered.valid
      (least same) (one ▸ isLeast_singleton)
    exact valid reason ((answer leads).symm.trans failed)
  · intro old
    have idle := (idle_iff_callGraph fits whole).mpr old
    refine ⟨idle.targets, fun config given same => ?_⟩
    exact answer (leads_run_idle config (least same) idle.targets)

/-- The vulnerability was registered after the call graph had been removed and recorded again. -/
theorem vulnerability_seedable_iff_registered_later :
    let operations : List Operation := [.upsertSymbol "parse", .resetDomain .callGraph,
      .upsertSymbol "parse", .createVulnerability (some "weakness") "parse", .resetDomain .topology]
    Medium.database.Fits operations ∧ (∀ kinds, Operation.resetKinds kinds ∉ operations) ∧
    (Medium.database.contents operations).node? ⟨2⟩ =
      some (.vulnerability (some "weakness")) ∧
    (∃ g ∈ (Medium.database.contents operations).ofKind .symbol,
      (Medium.database.contents operations).targets ⟨2⟩ .threatens = {g}) ∧
    ∀ config reason, ((Operation.run config (some "weakness")).on Database.store
      (Medium.database.reached operations)).1 ≠ .error (.invalid reason) := by
  intro operations
  have fits : Medium.database.Fits operations := fun _ _ _ => trivial
  have whole : ∀ kinds, Operation.resetKinds kinds ∉ operations := by simp [operations]
  have found : (Medium.database.contents operations).node? ⟨2⟩ =
      some (.vulnerability (some "weakness")) := by decide +kernel
  have young : ¬ ∃ before after, operations = before ++ .resetDomain .callGraph :: after ∧
      ⟨2⟩ ∈ (Medium.database.contents before).ofKind .vulnerability ∧ .reset ∉ after := by
    rintro ⟨_ | ⟨_, _ | ⟨_, _ | ⟨_, _ | ⟨_, _ | ⟨_, rest⟩⟩⟩⟩⟩, after, same,
      ⟨node, early, _⟩, _⟩
    all_goals simp only [operations, List.nil_append, List.cons_append, List.cons.injEq,
      Operation.resetDomain.injEq, reduceCtorEq, false_and, and_false, List.nil_eq,
      List.append_eq_nil_iff] at same
    obtain ⟨rfl, _⟩ := same
    have unknown : (Medium.database.contents [.upsertSymbol "parse"]).node? ⟨2⟩ = none := by
      decide +kernel
    cases unknown.symm.trans early
  have seedable := (vulnerability_seedable_iff .database fits whole found).1 young
  exact ⟨fits, whole, found, seedable.1, fun config => seedable.2 config _ rfl⟩

/-- The symbol went with the call graph, and the vulnerability stayed. -/
theorem vulnerability_idle_after_reset :
    let operations : List Operation :=
      [.upsertSymbol "parse", .createVulnerability (some "weakness") "parse",
        .resetDomain .callGraph]
    (¬ ∀ v ∈ (Medium.database.contents operations).ofKind .vulnerability,
      ∃ g ∈ (Medium.database.contents operations).ofKind .symbol,
        (Medium.database.contents operations).targets v .threatens = {g}) ∧
    ((Operation.run {} (some "weakness")).on Database.store
      (Medium.database.reached operations)).1 =
      .error (.invalid s!"vulnerability {(⟨2⟩ : NodeId)} threatens no symbol") := by
  intro operations
  have fits : Medium.database.Fits operations := fun _ _ _ => trivial
  have found : (Medium.database.contents operations).node? ⟨2⟩ =
      some (.vulnerability (some "weakness")) := by decide +kernel
  have edges : Tables.links (Database.tables (Medium.database.reached operations)) = [] := by
    decide +kernel
  have none : (Medium.database.contents operations).targets ⟨2⟩ .threatens = ∅ :=
    (Database.targets_of_links edges ⟨2⟩ .threatens).trans (by simp)
  have least :
      IsLeast ((Medium.database.contents operations).vulnerabilities (some "weakness")) ⟨2⟩ :=
    ⟨found, fun other mem => ((contents_registered fits).identities _ found mem).le⟩
  obtain ⟨_, same, _⟩ := Medium.database.run_of_leads (reached_sound fits)
    (leads_run_idle {} least none)
  refine ⟨fun threatening => ?_, congrArg Prod.fst same⟩
  obtain ⟨g, _, one⟩ := threatening ⟨2⟩ ⟨_, found, rfl⟩
  exact Set.singleton_ne_empty g (one.symm.trans none)

end Medium

end BlastRadius
