import BlastRadius.Proofs.Store.Contents
import BlastRadius.Propagation.Stage

/-!
The rules by which marks spread after the closure of calls, as functions of the set of marked nodes.
What a rule reaches depends on the nodes and edges alone; it grows with the marks and never contains
a symbol.
-/

namespace BlastRadius

/-- A rule of a stage after the closure of calls. -/
inductive Rule where
  /-- The libraries that provide a marked symbol. -/
  | providers
  /-- The bindings about a marked node of a kind and their targets of another kind,
  if there are some. -/
  | siblings (anchor sibling : NodeKind)
  /-- The endpoints that serve a marked symbol, the dependencies that call them, the callers and the
  components that these expose. -/
  | network
  /-- The assets that host a marked component. -/
  | hosts
  /-- The components that a marked asset hosts. -/
  | residents
  /-- The systems that contain a marked component. -/
  | systems

/-- The rules of a stage, in the order in which it applies them. -/
def Stage.rules : Stage → List Rule
  | allReachingSymbols => []
  | allProvidingLibraries =>
      [.providers, .siblings .library .component, .siblings .library .asset,
        .siblings .component .asset]
  | allReachingComponents => [.network]
  | allHostingAssets => [.hosts]
  | lateralMovement => [.residents]
  | allSystems => [.systems]

namespace Rule

/-- The kind of the marked nodes that a rule starts from. -/
def anchor : Rule → NodeKind
  | providers => .symbol
  | siblings anchor _ => anchor
  | network => .symbol
  | hosts => .component
  | residents => .asset
  | systems => .component

def kinds : Rule → List NodeKind
  | providers => [.library]
  | siblings _ sibling => [.binding, sibling]
  | network => [.endpoint, .interComponentDependency, .component]
  | hosts => [.asset]
  | residents => [.component]
  | systems => [.system]

end Rule

theorem Stage.rules_kinds (stage : Stage) :
    ∀ rule ∈ stage.rules, .symbol ∉ rule.kinds ∧ .callGraphDependency ∉ rule.kinds := by
  cases stage <;> decide

/-- No rule of a stage reaches what it or an earlier rule of the stage starts from. -/
theorem Stage.rules_forward (stage : Stage) :
    (∀ rule ∈ stage.rules, rule.anchor ∉ rule.kinds) ∧
      stage.rules.Pairwise fun rule later => rule.anchor ∉ later.kinds := by
  cases stage <;> decide

namespace Contents

variable (c : Contents)

def among (ids : Set NodeId) (kind : NodeKind) : Set NodeId := ids ∩ c.ofKind kind

/-- What a rule reaches when the given nodes are marked. -/
def reach (ids : Set NodeId) : Rule → Set NodeId
  | .providers => {x | ∃ s ∈ c.among ids .symbol, x ∈ c.sources s .provides}
  | .siblings anchor sibling =>
      {x | ∃ a ∈ c.among ids anchor, ∃ b ∈ c.sources a .specializesInto,
        ∃ t ∈ c.among (c.targets b .specializesInto) sibling, x = b ∨ x = t}
  | .network =>
      {x | ∃ s ∈ c.among ids .symbol, ∃ e ∈ c.sources s .serves, x = e ∨
        ∃ r ∈ c.among (c.sources e .callees) .interComponentDependency, x = r ∨
          ∃ k ∈ c.targets r .caller, x = k ∨ x ∈ c.targets k .exposes}
  | .hosts => {x | ∃ m ∈ c.among ids .component, x ∈ c.targets m .hostedBy}
  | .residents => {x | ∃ a ∈ c.among ids .asset, x ∈ c.sources a .hostedBy}
  | .systems => {x | ∃ m ∈ c.among ids .component, x ∈ c.sources m .composedOf}

/-- A set that no rule leads out of. -/
def Closed (ids : Set NodeId) : Prop := ∀ stage :
    Stage, ∀ rule ∈ stage.rules, c.reach ids rule ⊆ ids

def spread (rule : Rule) : Contents := c.mark (c.reach c.marked rule)

def sweep (rules : List Rule) : Contents := rules.foldl spread c

variable {c}

theorem among_mono {ids ids' : Set NodeId} (sub : ids ⊆ ids') (kind : NodeKind) :
    c.among ids kind ⊆ c.among ids' kind :=
  Set.inter_subset_inter_left _ sub

theorem reach_mono {ids ids' : Set NodeId} (sub : ids ⊆ ids') (rule : Rule) :
    c.reach ids rule ⊆ c.reach ids' rule := by
  intro x mem
  cases rule <;>
    exact mem.imp fun _ found => ⟨c.among_mono sub _ found.1, found.2⟩

theorem reach_mark (ids marks : Set NodeId) (rule : Rule) :
    (c.mark ids).reach marks rule = c.reach marks rule := by
  cases rule <;> rfl

theorem not_mem_ofKind_of_ne {x : NodeId} {a b : NodeKind} (h : x ∈ c.ofKind a) (ne : a ≠ b) :
    x ∉ c.ofKind b :=
  fun other => ne (ofKind_eq h other)

/-- What a rule reaches depends on the nodes that it starts from. -/
theorem reach_congr {ids ids' : Set NodeId} {rule : Rule}
    (same : c.among ids rule.anchor = c.among ids' rule.anchor) :
      c.reach ids rule = c.reach ids' rule := by
  cases rule <;>
    · simp only [Rule.anchor] at same
      simp only [reach, same]

theorem reach_kinds (valid : c.Valid) {rule : Rule} {ids : Set NodeId} {x : NodeId}
    (reached : x ∈ c.reach ids rule) : ∃ kind ∈ rule.kinds, x ∈ c.ofKind kind := by
  cases rule with
  | providers =>
      obtain ⟨s, _, edge⟩ := reached
      exact ⟨.library, by decide, valid.source_kind (by decide) edge⟩
  | siblings anchor sibling =>
      obtain ⟨a, _, b, edge, t, ⟨_, kind⟩, rfl | rfl⟩ := reached
      · exact ⟨.binding, List.mem_cons_self, valid.source_kind (by decide) edge⟩
      · exact ⟨sibling, List.mem_cons_of_mem _ List.mem_cons_self, kind⟩
  | network =>
      obtain ⟨s, _, e, serves, rfl | ⟨r, ⟨calls, kind⟩,
        rfl | ⟨k, caller, rfl | exposes⟩⟩⟩ := reached
      · exact ⟨.endpoint, by decide, valid.source_kind (by decide) serves⟩
      · exact ⟨_, by decide, kind⟩
      · obtain ⟨a, b, hr, hk, permitted⟩ := valid.kinds caller
        rw [ofKind_eq hr kind] at permitted
        obtain rfl : b = .endpoint := by simpa [Relation.permitted] using permitted
        exact ⟨.endpoint, by decide, hk⟩
      · exact ⟨.component, by decide, valid.target_kind (by decide) exposes⟩
  | hosts =>
      obtain ⟨m, _, edge⟩ := reached
      exact ⟨.asset, by decide, valid.target_kind (by decide) edge⟩
  | residents =>
      obtain ⟨a, _, edge⟩ := reached
      exact ⟨.component, by decide, valid.source_kind (by decide) edge⟩
  | systems =>
      obtain ⟨m, _, edge⟩ := reached
      exact ⟨.system, by decide, valid.source_kind (by decide) edge⟩

theorem reach_subset_live (valid : c.Valid) {rule : Rule} {ids : Set NodeId} :
    c.reach ids rule ⊆ c.live := by
  intro x reached
  obtain ⟨kind, _, own⟩ := reach_kinds valid reached
  exact ofKind_subset_live kind own

theorem reach_kind (valid : c.Valid) {stage : Stage} {rule : Rule} (mem : rule ∈ stage.rules)
    {ids : Set NodeId} {x : NodeId} (reached : x ∈ c.reach ids rule) :
    ∃ kind, x ∈ c.ofKind kind ∧ kind ≠ .symbol ∧ kind ≠ .callGraphDependency := by
  obtain ⟨kind, listed, own⟩ := reach_kinds valid reached
  obtain ⟨symbol, record⟩ := stage.rules_kinds rule mem
  exact ⟨kind, own, fun same => symbol (same ▸ listed), fun same => record (same ▸ listed)⟩

theorem reach_live (valid : c.Valid) {stage : Stage} {rule : Rule} (mem : rule ∈ stage.rules)
    {ids : Set NodeId} {x : NodeId} (reached : x ∈ c.reach ids rule) :
    x ∈ c.live ∧ x ∉ c.ofKind .symbol := by
  obtain ⟨kind, own, ne, _⟩ := reach_kind valid mem reached
  exact ⟨ofKind_subset_live kind own, not_mem_ofKind_of_ne own ne⟩

theorem sweep_cons (rule : Rule) (rules : List Rule) :
    c.sweep (rule :: rules) = (c.spread rule).sweep rules := rfl

theorem sweep_append (rules rules' : List Rule) :
    c.sweep (rules ++ rules') = (c.sweep rules).sweep rules' :=
  List.foldl_append

theorem mark_of_subset {ids : Set NodeId} (sub : ids ⊆ c.marked) : c.mark ids = c := by
  simp only [mark, Set.union_eq_left.mpr sub]

theorem exists_sweep (rules : List Rule) : ∃ ids, c.sweep rules = c.mark ids := by
  induction rules generalizing c with
  | nil => exact ⟨∅, (mark_of_subset (Set.empty_subset _)).symm⟩
  | cons rule rest ih =>
      obtain ⟨ids, swept⟩ := ih (c := c.spread rule)
      exact ⟨_, by rw [sweep_cons, swept, spread, mark_mark]⟩

theorem subset_sweep (rules : List Rule) : c.marked ⊆ (c.sweep rules).marked := by
  obtain ⟨ids, swept⟩ := exists_sweep (c := c) rules
  rw [swept]
  exact Set.subset_union_left

theorem Valid.spread (valid : c.Valid) {stage : Stage} {rule : Rule} (mem : rule ∈ stage.rules) :
    (c.spread rule).Valid :=
  valid.mark fun _ reached => (reach_live valid mem reached).1

theorem Valid.sweep (valid : c.Valid) {rules : List Rule}
    (staged : ∀ rule ∈ rules, ∃ stage : Stage, rule ∈ stage.rules) :
      (c.sweep rules).Valid := by
  induction rules generalizing c with
  | nil => exact valid
  | cons rule rest ih =>
      obtain ⟨stage, mem⟩ := staged rule List.mem_cons_self
      exact ih (valid.spread mem) fun rule' mem' => staged rule' (List.mem_cons_of_mem rule mem')

theorem Valid.among_spread (valid : c.Valid) {rule : Rule} {kind : NodeKind}
    (other : kind ∉ rule.kinds) :
    (c.spread rule).among (c.spread rule).marked kind = c.among c.marked kind := by
  ext x
  constructor
  · rintro ⟨old | reached, own⟩
    · exact ⟨old, own⟩
    · obtain ⟨kind', listed, own'⟩ := reach_kinds valid reached
      exact absurd (ofKind_eq own' own ▸ listed) other
  · exact fun ⟨old, own⟩ => ⟨Or.inl old, own⟩

theorem Valid.among_sweep (valid : c.Valid) {rules : List Rule} {kind : NodeKind}
    (other : ∀ rule ∈ rules, kind ∉ rule.kinds) :
    (c.sweep rules).among (c.sweep rules).marked kind = c.among c.marked kind := by
  induction rules generalizing c with
  | nil => rfl
  | cons rule rest ih =>
      have valid' : (c.spread rule).Valid := valid.mark (reach_subset_live valid)
      rw [sweep_cons, ih valid' fun rule' mem => other rule' (List.mem_cons_of_mem rule mem),
        valid.among_spread (other rule List.mem_cons_self)]

theorem sweep_subset {ids : Set NodeId} (closed : c.Closed ids) {rules : List Rule}
    (staged : ∀ rule ∈ rules, ∃ stage : Stage, rule ∈ stage.rules)
    (sub : c.marked ⊆ ids) :
    (c.sweep rules).marked ⊆ ids := by
  induction rules generalizing c with
  | nil => exact sub
  | cons rule rest ih =>
      obtain ⟨stage, mem⟩ := staged rule List.mem_cons_self
      have reached : c.reach c.marked rule ⊆ ids :=
        (reach_mono sub rule).trans (closed stage rule mem)
      refine ih (c := c.spread rule) (fun stage' rule' mem' => ?_)
        (fun rule' mem' => staged rule' (List.mem_cons_of_mem rule mem'))
          (Set.union_subset sub reached)
      rw [spread, reach_mark]
      exact closed stage' rule' mem'

theorem reach_subset_of_sweep {rules : List Rule} (stable : (c.sweep rules).marked ⊆ c.marked) :
    ∀ rule ∈ rules, c.reach c.marked rule ⊆ c.marked := by
  induction rules with
  | nil => exact fun _ mem => absurd mem List.not_mem_nil
  | cons rule rest ih =>
      have first : c.reach c.marked rule ⊆ c.marked :=
        (Set.subset_union_right.trans (subset_sweep (c := c.spread rule) rest)).trans stable
      have same : c.spread rule = c := mark_of_subset first
      rw [sweep_cons, same] at stable
      intro rule' mem
      rcases List.mem_cons.mp mem with rfl | mem
      · exact first
      · exact ih stable rule' mem

/-- A sweep over the rules of every stage that adds no mark shows that the marks are closed. -/
theorem closed_of_sweep {rules : List Rule} (all : ∀ stage : Stage, stage.rules ⊆ rules)
    (stable : (c.sweep rules).marked ⊆ c.marked) : c.Closed c.marked :=
  fun stage rule mem => reach_subset_of_sweep stable rule (all stage mem)

theorem sweep_of_reach {rules : List Rule}
    (idle : ∀ rule ∈ rules, c.reach c.marked rule ⊆ c.marked) :
    c.sweep rules = c := by
  induction rules with
  | nil => rfl
  | cons rule rest ih =>
      have same : c.spread rule = c := mark_of_subset (idle rule List.mem_cons_self)
      rw [sweep_cons, same]
      exact ih fun rule' mem => idle rule' (List.mem_cons_of_mem rule mem)

theorem sweep_of_closed (closed : c.Closed c.marked) {rules : List Rule}
    (staged : ∀ rule ∈ rules, ∃ stage : Stage, rule ∈ stage.rules) : c.sweep rules = c := by
  apply sweep_of_reach
  intro rule mem
  obtain ⟨stage, mem⟩ := staged rule mem
  exact closed stage rule mem

end Contents

end BlastRadius
