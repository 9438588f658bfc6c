import BlastRadius.Proofs.Inventory.Acceptance

/-!
Operations with many targets. Each target is an assertion by itself: those that are accepted are
recorded, whatever becomes of the others, and the operation fails when one of them is not.
-/

namespace BlastRadius

/-- Whether identifiers had run out for one of the targets. -/
def Outcomes.exhausted {α : Type} (outcomes : Outcomes α) : Bool :=
  ImpactError.someExhausted outcomes.failures

theorem Outcomes.exhausted_record {α : Type} (outcomes : Outcomes α) (target : String)
    (error : ImpactError) : (outcomes.record target (.error error)).exhausted =
      (outcomes.exhausted || error.exhausted) := by
  rw [exhausted, record, ImpactError.someExhausted_append]
  simp [exhausted, ImpactError.someExhausted, ImpactError.targetExhausted]

/-- The facts that are accepted of the assertions about some targets. -/
def Assertion.acceptedOf {τ : Type} (detail : τ → Assertion) (known : Set Fact)
    (targets : List τ) :
    Set Fact :=
  {fact | ∃ t ∈ targets, (detail t).Accepted known ∧ fact ∈ (detail t).facts}

open Contents

/-- What is known after some of the targets have been tried. -/
structure Tally {τ α : Type} (supply : Supply) (c : Contents) (detail : τ → Assertion)
    (means : τ → α → Contents → Prop) (targets tried : List τ) (outcomes : Outcomes α)
    (m : Contents) :
    Prop where
  among : ∀ t ∈ tried, t ∈ targets
  gains : ∃ gained ⊆ Assertion.acceptedOf detail c.shown tried, c.Gains gained ∅ m ∧
    (outcomes.exhausted = false → gained = Assertion.acceptedOf detail c.shown tried)
  successes : ∀ value ∈ outcomes.successes, ∃ t ∈ tried, (detail t).Accepted c.shown ∧
    means t value m
  complete : outcomes.exhausted = false → ∀ t ∈ tried, (detail t).Accepted c.shown →
    ∃ value ∈ outcomes.successes, means t value m
  failures : outcomes.exhausted = false →
    (outcomes.failures = [] ↔ ∀ t ∈ tried, (detail t).Accepted c.shown)
  lacking : outcomes.exhausted = true → supply.Lacking

namespace Tally

variable {τ α : Type} {supply : Supply} {c m m' : Contents} {detail : τ → Assertion}
  {means : τ → α → Contents → Prop} {targets tried : List τ}
    {outcomes : Outcomes α} {t : τ}

theorem start (regular : c.Regular) : Tally supply c detail means targets [] {} c where
  among := nofun
  gains := ⟨∅, Set.empty_subset _, .refl regular, fun _ => by simp [Assertion.acceptedOf]⟩
  successes := nofun
  complete _ := nofun
  failures _ := iff_of_true rfl nofun
  lacking := nofun

theorem acceptedOf_concat {known : Set Fact} (tried : List τ) (t : τ) :
    Assertion.acceptedOf detail known (tried ++ [t]) = Assertion.acceptedOf detail known tried ∪
      {fact | (detail t).Accepted known ∧ fact ∈ (detail t).facts} := by
  ext fact
  simp [Assertion.acceptedOf, or_and_right, exists_or]

theorem accept (tally : Tally supply c detail means targets tried outcomes m) (mem : t ∈ targets)
    (stays : ∀ {t value m m'}, means t value m → Outgrowth m m' → means t value m')
    (accepted : (detail t).Accepted c.shown)
    (gains : m.Gains {fact | fact ∈ (detail t).facts} ∅ m')
    {value : α} (meant : means t value m') (target : String) :
    Tally supply c detail means targets (tried ++ [t]) (outcomes.record target (.ok value)) m' where
  among u mem' := by
    rcases List.mem_append.mp mem' with old | new
    · exact tally.among u old
    · exact List.mem_singleton.mp new ▸ mem
  gains := by
    obtain ⟨gained, some, before, all⟩ := tally.gains
    have facts : {fact | (detail t).Accepted c.shown ∧ fact ∈ (detail t).facts} =
        {fact | fact ∈ (detail t).facts} := Set.ext fun fact => and_iff_right accepted
    rw [acceptedOf_concat, facts]
    refine ⟨_, Set.union_subset_union_left _ some,
      (before.trans gains).regroup (Set.union_empty _), ?_⟩
    exact fun room => congrArg (· ∪ _) (all room)
  successes other mem' := by
    rcases List.mem_append.mp mem' with old | new
    · obtain ⟨u, tried, accepted, meant⟩ := tally.successes other old
      exact ⟨u, List.mem_append_left _ tried, accepted, stays meant gains.outgrowth⟩
    · exact ⟨t, by simp, accepted, List.mem_singleton.mp new ▸ meant⟩
  complete room u mem' accepted' := by
    rcases List.mem_append.mp mem' with old | new
    · obtain ⟨other, among, meant⟩ := tally.complete room u old accepted'
      exact ⟨other, List.mem_append_left _ among, stays meant gains.outgrowth⟩
    · exact ⟨value, by simp [Outcomes.record], List.mem_singleton.mp new ▸ meant⟩
  failures room := by
    refine (tally.failures room).trans ⟨fun all u mem' => ?_, fun all u mem' => ?_⟩
    · rcases List.mem_append.mp mem' with old | new
      · exact all u old
      · exact List.mem_singleton.mp new ▸ accepted
    · exact all u (List.mem_append_left _ mem')
  lacking := tally.lacking

theorem fail (tally : Tally supply c detail means targets tried outcomes m) (mem : t ∈ targets)
    {error : ImpactError} (failed : error.exhausted = true ∧ supply.Lacking ∨
      error.exhausted = false ∧ ¬ (detail t).Accepted c.shown) (target : String) :
    Tally supply c detail means targets (tried ++ [t])
      (outcomes.record target (.error error)) m := by
  have refused (room : (outcomes.record target (.error error)).exhausted = false) :
      outcomes.exhausted = false ∧ ¬ (detail t).Accepted c.shown := by
    rw [Outcomes.exhausted_record, Bool.or_eq_false_iff] at room
    exact ⟨room.1, (failed.resolve_left fun full => by simp [full.1] at room).2⟩
  refine
    { among := fun u mem' => ?_, gains := ?_, successes := fun value mem' => ?_
      complete := fun room u mem' accepted => ?_, failures := fun room => ?_, lacking :=
        fun full => ?_ }
  · rcases List.mem_append.mp mem' with old | new
    · exact tally.among u old
    · exact List.mem_singleton.mp new ▸ mem
  · obtain ⟨gained, some, before, all⟩ := tally.gains
    rw [acceptedOf_concat]
    refine ⟨gained, some.trans Set.subset_union_left, before, fun room => ?_⟩
    obtain ⟨room', rejected⟩ := refused room
    rw [all room', eq_comm, Set.union_eq_left]
    exact fun fact accepted => absurd accepted.1 rejected
  · obtain ⟨u, tried, accepted, meant⟩ := tally.successes value mem'
    exact ⟨u, List.mem_append_left _ tried, accepted, meant⟩
  · obtain ⟨room', rejected⟩ := refused room
    rcases List.mem_append.mp mem' with old | new
    · exact tally.complete room' u old accepted
    · exact absurd (List.mem_singleton.mp new ▸ accepted) rejected
  · refine iff_of_false (by simp [Outcomes.record]) fun all => ?_
    exact (refused room).2 (all t (by simp))
  · rw [Outcomes.exhausted_record, Bool.or_eq_true_iff] at full
    rcases full with old | new
    · exact tally.lacking old
    · exact (failed.resolve_right fun plain => by simp [plain.1] at new).2

end Tally

namespace Ensures

variable {supply : Supply} {c m : Contents} {a x y : NodeId} {e e' : Entity} {net : CallNetwork}

section Collect

variable {τ α : Type} {act : τ → ImpactProgram α} {describe : τ → String}
    {detail : τ → Assertion}
  {means : τ → α → Contents → Prop} {targets : List τ}

/-- Targets whose assertions do not depend on one another are tried one by one. -/
theorem collect_tally (other : Supply) (detail : τ → Assertion)
    (means : τ → α → Contents → Prop)
    (regular : c.Regular)
    (stays : ∀ {t value m m'}, means t value m → Outgrowth m m' → means t value m')
    (apart : ∀ t u, ∀ e ∈ (detail t).needs, .present e ∉ (detail u).facts)
    (each : ∀ t ∈ targets, ∀ m gained, c.Gains gained ∅ m →
      gained ⊆ Assertion.acceptedOf detail c.shown targets →
        Ensures supply (act t) m ((detail t).Settled other m (means t))) :
    Ensures supply (ImpactProgram.collect describe act {} targets) c fun x m =>
      ∃ outcomes, x = .ok outcomes ∧ Tally other c detail means targets targets outcomes m := by
  refine collect (J := Tally other c detail means targets) (.start regular) ?_
  intro tried t outcomes m mem tally
  obtain ⟨gained, some, gains, _⟩ := tally.gains
  have among : gained ⊆ Assertion.acceptedOf detail c.shown targets := fun fact mem' => by
    obtain ⟨u, tried, accepted⟩ := some mem'
    exact ⟨u, tally.among u tried, accepted⟩
  have same : (detail t).Accepted m.shown ↔ (detail t).Accepted c.shown := by
    refine and_congr_right fun _ => forall₂_congr fun e needed => ?_
    rw [gains.shown]
    refine or_iff_left fun new => ?_
    obtain ⟨u, _, _, stated⟩ := some new
    exact apart t u e needed stated
  refine (each t mem m gained gains among).mono fun x m' settled => ?_
  cases x with
  | ok value =>
      obtain ⟨accepted, gains', meant⟩ := settled
      exact tally.accept mem stays (same.mp accepted) gains' meant _
  | error error =>
      obtain ⟨rfl, failed⟩ := settled
      exact tally.fail mem (by rwa [same] at failed) _

end Collect

theorem ensureRecord (valid : c.Valid) (own : a ∈ c.ofKind net.caller)
    (spare : c.sources a .caller = ∅ → supply.spare c)
    {Q : Except StoreError NodeId → Contents → Prop}
    (found : ∀ r, c.Records net r a → Q (.ok r) c)
    (inserted : ∀ r, c.node? r = none → c.sources a .caller = ∅ →
      Q (.ok r) (c.record net r a))
    (refused : supply.short c → ∀ row, Q (.error (.idOverflow row)) c) :
    Ensures supply (Inventory.ensureDependency net a) c Q := by
  refine leads_bind (reads_existingDependency valid own) ?_
  cases known : (NodeId.listed (c.sources a .caller)).head? with
  | some r =>
      have edge : ⟨r, .caller, a⟩ ∈ c.edges :=
        NodeId.mem_listed.mp (List.mem_of_mem_head? known)
      exact pure (found r ⟨valid.caller_record own edge, edge⟩)
  | none =>
      have none : c.sources a .caller = ∅ := by
        rwa [List.head?_eq_none_iff, NodeId.listed_eq_nil] at known
      refine (insertNode (Q := fun x m =>
        (∃ r, c.node? r = .none ∧ x = .ok r ∧ m = c.insert r net.record) ∨
        ∃ row, x = .error (.idOverflow row) ∧ supply.short c ∧ m = c) (fun key keyed => ?_)
          (spare none)
        (fun r fresh => Or.inl ⟨r, fresh, rfl, rfl⟩) fun short row =>
          Or.inr ⟨row, rfl, short, rfl⟩).bind
          ?_ ?_
      · cases net <;> cases keyed
      · rintro r _ (⟨_, fresh, ⟨⟩, rfl⟩ | ⟨_, ⟨⟩, _⟩)
        obtain ⟨target, held, kind⟩ := own
        have linked := linked_of_permits (e := ⟨r, .caller, a⟩)
            (c.insert_node?_self r net.record)
          (insert_node?_of_some fresh held) (kind ▸ net.permits_caller)
        refine leads_bind (Leads.call (q := .insertEdge ⟨r, .caller, a⟩) (congrArg some linked))
          ?_
        exact pure (inserted r fresh none)
      · rintro _ _ (⟨_, _, ⟨⟩, _⟩ | ⟨row, ⟨⟩, short, rfl⟩)
        exact refused short row

theorem ensureDependency (valid : c.Valid) (own : a ∈ c.ofKind net.caller)
    (spare : c.sources a .caller = ∅ → supply.spare c) :
    Ensures supply (Inventory.ensureDependency net a) c (supply.Yields fun r m =>
      m = c ∧ c.Records net r a ∨
      c.node? r = none ∧ c.sources a .caller = ∅ ∧ m = c.record net r a) :=
  ensureRecord valid own spare (fun _ records => Or.inl ⟨rfl, records⟩)
    (fun _ fresh none => Or.inr ⟨fresh, none, rfl⟩) fun short row =>
      ⟨⟨row, rfl⟩, c, short⟩

theorem linking (regular : c.Regular) (caller : c.Denotes a e) (own : a ∈ c.ofKind net.caller)
    {l : List NodeId} (nonempty : l ≠ []) (targets : {t | t ∈ l} ⊆ c.ofKind net.caller)
    (spare : (∀ r b, c.Records net r b → ¬ c.Denotes b e) → supply.spare c) :
    Ensures supply (Inventory.linking net a l) c
      (supply.Yields fun _ m => c.Gains (.calls net e '' c.entities {t | t ∈ l}) ∅ m) := by
  refine yields_bind (ensureDependency regular.valid own fun none => spare ?_) ?_
  · intro r b records denotes
    obtain rfl := regular.valid.denotes_unique denotes caller
    exact Set.notMem_empty r (none ▸ records.2)
  · have link {m : Contents} {r : NodeId} (record : r ∈ m.ofKind net.record.kind)
        (targets : {t | t ∈ l} ⊆ m.ofKind net.caller)
        (gains : c.Gains (.calls net e '' c.entities {t | t ∈ l}) ∅
          (m.linkAll r .callees {t | t ∈ l})) : Ensures supply (do
            let _ ← StoreProgram.each (fun callee =>
              StoreProgram.call (.insertEdge ⟨r, .callees, callee⟩)) l
            return r) m (supply.Yields fun _ m =>
              c.Gains (.calls net e '' c.entities {t | t ∈ l}) ∅ m) := by
      obtain ⟨added, leads⟩ := leads_linkAll record fun t mem =>
        ⟨net.caller, targets mem, net.permits_callees⟩
      exact leads_bind leads (pure gains)
    rintro r _ (⟨rfl, records⟩ | ⟨fresh, none, rfl⟩)
    · exact link records.1 targets (regular.gains_callees records caller targets)
    · refine link ⟨_, c.insert_node?_self r net.record, rfl⟩ (fun t mem => ?_) ?_
      · exact (mem_ofKind_insert fresh).mpr (Or.inl (targets mem))
      · exact regular.gains_first_callees fresh none own caller targets
          (List.exists_mem_of_ne_nil l nonempty)

theorem linkDependency (regular : c.Regular) (caller : c.Denotes a e)
    (own : a ∈ c.ofKind net.caller)
    {l : List NodeId} (targets : {t | t ∈ l} ⊆ c.ofKind net.caller)
    (spare : l ≠ [] → (∀ r b, c.Records net r b → ¬ c.Denotes b e) → supply.spare c)
    {Q : Except StoreError DependencyLink → Contents → Prop}
    (linked : ∀ link m, c.Gains (.calls net e '' c.entities {t | t ∈ l}) ∅ m →
      Q (.ok link) m)
    (refused : ∀ row, supply.Lacking → Q (.error (.idOverflow row)) c) :
    Ensures supply (Inventory.linkDependency net a l) c Q := by
  rw [Inventory.linkDependency]
  split
  · rename_i none
    obtain rfl := List.isEmpty_iff.mp none
    refine pure (linked _ c ((Gains.refl regular).congr ?_))
    simp [entities]
  · rename_i some
    have nonempty : l ≠ [] := fun none => some (List.isEmpty_iff.mpr none)
    have same : {t | t ∈ NodeId.ascending l} = {t | t ∈ l} :=
      Set.ext fun t => NodeId.mem_ascending
    have nonempty' : NodeId.ascending l ≠ [] := by
      obtain ⟨t, mem⟩ := List.exists_mem_of_ne_nil l nonempty
      exact List.ne_nil_of_mem (NodeId.mem_ascending.mpr mem)
    have linking := linking (l := NodeId.ascending l) regular caller own nonempty'
        (same ▸ targets)
      (spare nonempty)
    rw [same] at linking
    refine (atomically_yields linking).bind (fun _ m gains => pure (linked _ m gains)) ?_
    rintro error m ⟨⟨row, rfl⟩, lacking, rfl⟩
    exact refused row lacking

end Ensures

end BlastRadius
