import BlastRadius.Proofs.Propagation.Rules
import BlastRadius.Proofs.Store.Reading
import BlastRadius.Propagation.Run

/-!
What the stages after the closure of calls find and mark: a stage sweeps over its rules, and its
count is the number of new marks.
-/

namespace BlastRadius.Propagation

variable {α : Type} {c : Contents}

theorem finds_fromMarked {kind : NodeKind} {f : NodeId → StoreProgram (List NodeId)}
    {g : NodeId → Set NodeId} (h : ∀ id ∈ c.among c.marked kind, Finds (f id) c (g id)) :
    Finds (fromMarked kind f) c {x | ∃ id ∈ c.among c.marked kind, x ∈ g id} := by
  refine (Finds.ofListed (Reads.markedNodes kind)).bind fun l mem => ?_
  refine (Finds.gather fun a ha => h a ((mem a).mp ha)).congr fun x => ?_
  exact exists_congr fun a => and_congr_left fun _ => mem a

theorem reads_kind_beq {id : NodeId} (live : id ∈ c.live) (kind : NodeKind) :
    ∃ b : Bool, Reads (do
      let found ← StoreProgram.call (.nodeKind id)
      return found == kind) c b ∧ (b = true ↔ id ∈ c.ofKind kind) := by
  obtain ⟨node, found⟩ := live
  have same : id ∈ c.ofKind node.kind := ⟨node, found, rfl⟩
  refine ⟨node.kind == kind, (Reads.nodeKind same).bind (.pure _), ?_⟩
  rw [beq_iff_eq, Contents.mem_ofKind found]

theorem finds_keep {τ : Type} {p : τ → StoreProgram Bool} {q : τ → Prop} {l : List τ}
    (h : ∀ a ∈ l, ∃ b : Bool, Reads (p a) c b ∧ (b = true ↔ q a)) :
    Finds (StoreProgram.keep p l) c {a | a ∈ l ∧ q a} := by
  classical
  refine ⟨_, Reads.keep (g := fun a => decide (q a)) fun a mem => ?_, by simp⟩
  obtain ⟨b, reads, iff⟩ := h a mem
  rwa [show decide (q a) = b by rw [Bool.eq_iff_iff, decide_eq_true_iff, iff]]

theorem finds_ofKind {ids : List NodeId} (live : ∀ id ∈ ids, id ∈ c.live) (kind : NodeKind) :
    Finds (ofKind kind ids) c (c.among {id | id ∈ ids} kind) :=
  finds_keep fun id mem => reads_kind_beq (live id mem) kind

theorem finds_callingRecords (valid : c.Valid) {kind : NodeKind} {callee : NodeId}
    (live : callee ∈ c.live) {f : NodeId → StoreProgram (List α)} {g : NodeId → Set α}
    (h : ∀ r ∈ c.among (c.sources callee .callees) kind, Finds (f r) c (g r)) :
    Finds (callingRecords kind callee f) c
      {x | ∃ r ∈ c.among (c.sources callee .callees) kind, x ∈ g r} := by
  refine (Finds.ofListed (Reads.sources live .callees)).bind fun records mem => ?_
  have record (r : NodeId) (hr : r ∈ records) : Finds (do
      let k ← StoreProgram.call (.nodeKind r)
      if k == kind then f r else return []) c {x | r ∈ c.ofKind kind ∧ x ∈ g r} := by
    obtain ⟨node, known⟩ := valid.source_live ((mem r).mp hr)
    have own : r ∈ c.ofKind node.kind := ⟨node, known, rfl⟩
    by_cases same : node.kind = kind
    · obtain ⟨l, reads, elements⟩ := h r ⟨(mem r).mp hr, same ▸ own⟩
      refine ⟨l, (Reads.nodeKind own).bind ?_, fun x => ?_⟩
      · rw [if_pos (beq_iff_eq.mpr same)]
        exact reads
      · exact (elements x).trans ⟨fun hx => ⟨same ▸ own, hx⟩, And.right⟩
    · refine ⟨[], (Reads.nodeKind own).bind ?_, fun x => ?_⟩
      · rw [if_neg fun h => same (beq_iff_eq.mp h)]
        exact .pure []
      · simp [Contents.mem_ofKind known, same]
  refine (Finds.gather record).congr fun x => ?_
  constructor
  · rintro ⟨r, hr, kind, hx⟩
    exact ⟨r, ⟨(mem r).mp hr, kind⟩, hx⟩
  · rintro ⟨r, ⟨hr, kind⟩, hx⟩
    exact ⟨r, (mem r).mpr hr, kind, hx⟩

theorem finds_siblings (valid : c.Valid) (anchor sibling : NodeKind) :
    Finds (siblings anchor sibling) c (c.reach c.marked (.siblings anchor sibling)) := by
  refine finds_fromMarked fun a ha => ?_
  refine (Finds.ofListed (Reads.sources (valid.marked_live ha.1) .specializesInto)).bind
    fun bindings mem => ?_
  have binding (b : NodeId) (hb : b ∈ bindings) : Finds (do
      let targets ← StoreProgram.call (.targets b .specializesInto)
      let found ← ofKind sibling targets
      return if found.isEmpty then [] else b :: found) c
        {x | ∃ t ∈ c.among (c.targets b .specializesInto) sibling, x = b ∨ x = t} := by
    have live : b ∈ c.live := valid.source_live ((mem b).mp hb)
    refine (Finds.ofListed (Reads.targets live .specializesInto)).bind fun targets memT => ?_
    refine (finds_ofKind (fun t ht => valid.target_live ((memT t).mp ht)) sibling).bind
      fun found memF => ⟨_, .pure _, fun x => ?_⟩
    have same : c.among {t | t ∈ targets} sibling =
        c.among (c.targets b .specializesInto) sibling := by
      rw [show {t | t ∈ targets} = c.targets b .specializesInto from Set.ext memT]
    rw [same] at memF
    cases found with
    | nil =>
        refine ⟨fun hx => absurd hx List.not_mem_nil, ?_⟩
        rintro ⟨t, ht, _⟩
        exact absurd ((memF t).mpr ht) List.not_mem_nil
    | cons first rest =>
        change x ∈ b :: first :: rest ↔ _
        rw [List.mem_cons]
        constructor
        · rintro (rfl | hx)
          · exact ⟨first, (memF first).mp List.mem_cons_self, Or.inl rfl⟩
          · exact ⟨x, (memF x).mp hx, Or.inr rfl⟩
        · rintro ⟨t, ht, rfl | rfl⟩
          · exact Or.inl rfl
          · exact Or.inr ((memF x).mpr ht)
  exact (Finds.gather binding).congr fun x => exists_congr fun b => and_congr_left fun _ => mem b

theorem finds_networkReach (valid : c.Valid) {s : NodeId} (live : s ∈ c.live) :
    Finds (networkReach s) c {x | ∃ e ∈ c.sources s .serves, x = e ∨
      ∃ r ∈ c.among (c.sources e .callees) .interComponentDependency, x = r ∨
        ∃ k ∈ c.targets r .caller, x = k ∨ x ∈ c.targets k .exposes} := by
  refine (Finds.ofListed (Reads.sources live .serves)).bind fun endpoints mem => ?_
  refine (Finds.gather (g := fun e => {x | x = e ∨
    ∃ r ∈ c.among (c.sources e .callees) .interComponentDependency, x = r ∨
      ∃ k ∈ c.targets r .caller, x = k ∨ x ∈ c.targets k .exposes}) fun e he => ?_).congr
        fun x => exists_congr fun e => and_congr_left fun _ => mem e
  refine (finds_callingRecords valid (valid.source_live ((mem e).mp he))
    (g := fun r => {x | x = r ∨ ∃ k ∈ c.targets r .caller, x = k ∨
      x ∈ c.targets k .exposes})
    fun r hr => ?_).bind fun reached memR => ⟨_, .pure _, fun x => ?_⟩
  · refine (Finds.ofListed (Reads.targets (valid.source_live hr.1) .caller)).bind
      fun callers memK => ?_
    refine (Finds.gather (g := fun k => {x | x = k ∨ x ∈ c.targets k .exposes})
      fun k hk => ?_).bind fun exposed memE => ⟨_, .pure _, fun x => ?_⟩
    · refine (Finds.ofListed (Reads.targets (valid.target_live ((memK k).mp hk)) .exposes)).bind
        fun owners memO => ⟨_, .pure _, fun x => ?_⟩
      rw [List.mem_cons, memO]
      rfl
    · rw [List.mem_cons, memE]
      exact or_congr_right (exists_congr fun k => and_congr_left fun _ => memK k)
  · rw [List.mem_cons, memR]
    rfl

theorem finds_providers (valid : c.Valid) :
    Finds (fromMarked .symbol fun id => StoreProgram.call (.sources id .provides)) c
      (c.reach c.marked .providers) :=
  finds_fromMarked fun _ h => Finds.ofListed (Reads.sources (valid.marked_live h.1) _)

theorem finds_network (valid : c.Valid) :
    Finds (fromMarked .symbol networkReach) c (c.reach c.marked .network) :=
  finds_fromMarked fun _ h => finds_networkReach valid (valid.marked_live h.1)

theorem finds_hosts (valid : c.Valid) :
    Finds (fromMarked .component fun id => StoreProgram.call (.targets id .hostedBy)) c
      (c.reach c.marked .hosts) :=
  finds_fromMarked fun _ h => Finds.ofListed (Reads.targets (valid.marked_live h.1) _)

theorem finds_residents (valid : c.Valid) :
    Finds (fromMarked .asset fun id => StoreProgram.call (.sources id .hostedBy)) c
      (c.reach c.marked .residents) :=
  finds_fromMarked fun _ h => Finds.ofListed (Reads.sources (valid.marked_live h.1) _)

theorem finds_systems (valid : c.Valid) :
    Finds (fromMarked .component fun id => StoreProgram.call (.sources id .composedOf)) c
      (c.reach c.marked .systems) :=
  finds_fromMarked fun _ h => Finds.ofListed (Reads.sources (valid.marked_live h.1) _)

theorem Leads.reading {p : StoreProgram α} {x : α} {c' : Contents}
    (h : Leads p.run c (.ok x) c') :
    Leads (reading p).run c (.ok x) c' :=
  h.mapError Interrupt.store

theorem Through.reading {I : Contents → Prop} {p : StoreProgram α} {x : α} {c' : Contents}
    (h : Through I p.run c (.ok x) c') : Through I (reading p).run c (.ok x) c' :=
  h.mapError Interrupt.store

/-- Existing nodes are marked, and the new marks are counted. Nothing is passed between the contents
before and after. -/
theorem through_commit {I : Contents → Prop} {ids : List NodeId}
    (live : ∀ id ∈ ids, id ∈ c.live)
    (here : I c) (there : I (c.mark {id | id ∈ ids})) :
    Through I (commit false ids).run c (.ok ({id | id ∈ ids} \ c.marked).ncard)
      (c.mark {id | id ∈ ids}) := by
  have same : {id | id ∈ NodeId.ascending ids} = {id | id ∈ ids} := by
    ext id
    exact NodeId.mem_ascending
  rw [← same] at there ⊢
  have liveAscending (id : NodeId) (mem : id ∈ NodeId.ascending ids) : id ∈ c.live :=
    live id (NodeId.mem_ascending.mp mem)
  rw [commit, if_neg Bool.false_ne_true]
  cases listed : NodeId.ascending ids with
  | nil =>
      have none : {id : NodeId | id ∈ ([] : List NodeId)} = ∅ := by simp
      rw [none, Set.empty_sdiff, Set.ncard_empty, Contents.mark_of_subset (Set.empty_subset _)]
      exact .pure 0
  | cons first rest =>
      rw [listed] at liveAscending there
      exact Through.reading
        (.call (congrArg some (Contents.marking_of_live liveAscending)) here there)

theorem leads_commit {ids : List NodeId} (live : ∀ id ∈ ids, id ∈ c.live) :
    Leads (commit false ids).run c (.ok ({id | id ∈ ids} \ c.marked).ncard)
      (c.mark {id | id ∈ ids}) :=
  (through_commit (I := fun _ => True) live trivial trivial).leads

theorem leads_mark {found : StoreProgram (List NodeId)} {ids : Set NodeId}
    (finds : Finds found c ids) (live : ids ⊆ c.live) :
    Leads (mark false found).run c (.ok (ids \ c.marked).ncard) (c.mark ids) := by
  obtain ⟨l, reads, mem⟩ := finds
  have same : {id | id ∈ l} = ids := Set.ext mem
  rw [← same]
  exact (Leads.reading reads).bind (leads_commit fun id hid => live ((mem id).mp hid))

noncomputable def gain (c : Contents) (rules : List Rule) : Nat :=
  ((c.sweep rules).marked \ c.marked).ncard

theorem ncard_add (m a b : Set NodeId) :
    (a \ m).ncard + (b \ (m ∪ a)).ncard = ((a ∪ b) \ m).ncard := by
  have disjoint : Disjoint (a \ m) (b \ (m ∪ a)) :=
    Set.disjoint_left.mpr fun x hx hx' => hx'.2 (Or.inr hx.1)
  rw [← Set.ncard_union_eq disjoint (Set.toFinite _) (Set.toFinite _)]
  congr 1
  ext x
  simp only [Set.mem_union, Set.mem_sdiff]
  tauto

theorem gain_append (c : Contents) (rules rules' : List Rule) :
    gain c (rules ++ rules') = gain c rules + gain (c.sweep rules) rules' := by
  obtain ⟨a, first⟩ := Contents.exists_sweep (c := c) rules
  obtain ⟨b, second⟩ := Contents.exists_sweep (c := c.sweep rules) rules'
  rw [gain, gain, gain, Contents.sweep_append, second, first]
  simp only [Contents.mark_marked, Set.union_sdiff_left]
  rw [Set.union_assoc, Set.union_sdiff_left]
  exact (ncard_add c.marked a b).symm

theorem gain_cons (c : Contents) (rule : Rule) (rest : List Rule) :
    gain c (rule :: rest) = gain c [rule] + gain (c.spread rule) rest :=
  gain_append c [rule] rest

theorem gain_singleton (c : Contents) (rule : Rule) :
    gain c [rule] = (c.reach c.marked rule \ c.marked).ncard := by
  rw [gain]
  congr 1
  change (c.marked ∪ c.reach c.marked rule) \ c.marked = _
  rw [Set.union_sdiff_left]

theorem gain_eq_zero {c : Contents} {rules : List Rule} :
    gain c rules = 0 ↔ (c.sweep rules).marked ⊆ c.marked := by
  rw [gain, Set.ncard_eq_zero, Set.sdiff_eq_empty]

theorem leads_rule (valid : c.Valid) {stage : Stage} {rule : Rule} (mem : rule ∈ stage.rules)
    {found : StoreProgram (List NodeId)} (finds : Finds found c (c.reach c.marked rule)) :
    Leads (mark false found).run c (.ok (gain c [rule])) (c.sweep [rule]) := by
  rw [gain_singleton]
  exact leads_mark finds fun _ reached => (Contents.reach_live valid mem reached).1

theorem leads_allProvidingLibraries (valid : c.Valid) :
    Leads (allProvidingLibraries fun _ => false).run c
      (.ok (gain c (Stage.rules .allProvidingLibraries)))
      (c.sweep (Stage.rules .allProvidingLibraries)) := by
  have first : .providers ∈ Stage.rules .allProvidingLibraries := by simp [Stage.rules]
  have second : .siblings .library .component ∈ Stage.rules .allProvidingLibraries := by
    simp [Stage.rules]
  have third : .siblings .library .asset ∈ Stage.rules .allProvidingLibraries := by
    simp [Stage.rules]
  have fourth : .siblings .component .asset ∈ Stage.rules .allProvidingLibraries := by
    simp [Stage.rules]
  have valid₁ := valid.spread first
  have valid₂ := valid₁.spread second
  have valid₃ := valid₂.spread third
  change Leads _ c (Except.ok (gain c [.providers, .siblings .library .component,
    .siblings .library .asset, .siblings .component .asset])) _
  rw [gain_cons c, gain_cons (c.spread .providers),
    gain_cons ((c.spread .providers).spread (.siblings .library .component)), ← Nat.add_assoc,
    ← Nat.add_assoc]
  refine (leads_rule valid first (finds_providers valid)).bind ?_
  refine (leads_rule valid₁ second (finds_siblings valid₁ .library .component)).bind ?_
  refine (leads_rule valid₂ third (finds_siblings valid₂ .library .asset)).bind ?_
  exact (leads_rule valid₃ fourth (finds_siblings valid₃ .component .asset)).bind (.pure _)

theorem leads_pass (valid : c.Valid) {stage : Stage} (mem : stage ∈ Stage.downstream) :
    Leads (pass (fun _ => false) stage).run c (.ok (gain c stage.rules)) (c.sweep stage.rules) := by
  cases stage with
  | allReachingSymbols => exact absurd mem (by decide)
  | allProvidingLibraries => exact leads_allProvidingLibraries valid
  | allReachingComponents =>
      exact leads_rule valid
        (by simp [Stage.rules] : .network ∈ Stage.rules .allReachingComponents)
        (finds_network valid)
  | allHostingAssets =>
      exact leads_rule valid (by simp [Stage.rules] : .hosts ∈ Stage.rules .allHostingAssets)
        (finds_hosts valid)
  | lateralMovement =>
      exact leads_rule valid (by simp [Stage.rules] : .residents ∈ Stage.rules .lateralMovement)
        (finds_residents valid)
  | allSystems =>
      exact leads_rule valid (by simp [Stage.rules] : .systems ∈ Stage.rules .allSystems)
        (finds_systems valid)

theorem leads_execute {stage : Stage} {n : Nat} {c' : Contents}
    (h : Leads (pass (fun _ => false) stage).run c (.ok n) c') :
    Leads (execute timeless stage).run c (.ok n) c' :=
  h.mapError (Interrupt.inStage stage)

/-- The reports of stages that run one after the other. -/
noncomputable def reportsOf (round : Nat) : List Stage → Contents → List StageReport
  | [], _ => []
  | stage :: rest, c => ⟨stage, round, gain c stage.rules⟩ ::
      reportsOf round rest (c.sweep stage.rules)

theorem total_reportsOf (round : Nat) (stages : List Stage) (c : Contents) :
    StageReport.total (reportsOf round stages c) = gain c (stages.flatMap Stage.rules) := by
  induction stages generalizing c with
  | nil => simp [reportsOf, StageReport.total, gain, Contents.sweep]
  | cons stage rest ih =>
      rw [List.flatMap_cons, gain_append, ← ih]
      rfl

theorem staged_rules (stages : List Stage) :
    ∀ rule ∈ stages.flatMap Stage.rules, ∃ stage : Stage, rule ∈ stage.rules := by
  intro rule mem
  obtain ⟨stage, _, mem⟩ := List.mem_flatMap.mp mem
  exact ⟨stage, mem⟩

theorem leads_runStages (round : Nat) {stages : List Stage} (sub : stages ⊆ Stage.downstream)
    (valid : c.Valid) : Leads (runStages timeless round stages).run c
      (.ok (reportsOf round stages c)) (c.sweep (stages.flatMap Stage.rules)) := by
  induction stages generalizing c with
  | nil => exact .pure []
  | cons stage rest ih =>
      have valid' : (c.sweep stage.rules).Valid := valid.sweep fun rule mem => ⟨stage, mem⟩
      rw [List.flatMap_cons, Contents.sweep_append]
      refine (leads_execute (leads_pass valid (sub List.mem_cons_self))).bind ?_
      exact (ih (fun other mem => sub (List.mem_cons_of_mem stage mem)) valid').bind (.pure _)

end BlastRadius.Propagation
