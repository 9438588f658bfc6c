import BlastRadius.Proofs.Inventory.Targets

/-!
Every operation that asserts something records what is accepted of it, and succeeds when that is
all. Otherwise it fails, and so it does when identifiers run out; only operations that record
endpoints one by one may then have recorded a part.
-/

namespace BlastRadius

open Contents

namespace Operation

/-- Operations that may have recorded a part of what is accepted when identifiers run out. -/
def gradual : Operation → Bool
  | addNetworkCalls .. | loadFixture _ => true
  | _ => false

/-- What is wanted of an operation that asserts something. -/
def Settled {α : Type} (operation : Operation) (supply : Supply) (c : Contents) :
    Except ImpactError α → Contents → Prop
  | .ok _, m => operation.Whole c.shown ∧
      c.Gains (operation.accepted c.shown) (operation.groups c.shown) m
  | .error error, m =>
      error.exhausted = false ∧ ¬ operation.Whole c.shown ∧
        c.Gains (operation.accepted c.shown) ∅ m ∨
      error.exhausted = true ∧ supply.Lacking ∧ ∃ gained ⊆ operation.accepted c.shown,
        c.Gains gained ∅ m ∧ (operation.gradual = false → gained = ∅)

variable {operation : Operation} {s : Assertion} {τ : Type} {detail : τ → Assertion}
  {targets : List τ} {known known' : Set Fact}

theorem whole_iff (head : operation.head = some s)
    (details : operation.details = targets.map detail) :
    operation.Whole known ↔ s.Accepted known ∧ ∀ t ∈ targets,
      (detail t).Accepted known := by
  simp [Whole, head, details]

theorem accepted_eq (head : operation.head = some s)
    (details : operation.details = targets.map detail)
    (accepted : s.Accepted known) : operation.accepted known =
      {fact | fact ∈ s.facts} ∪ Assertion.acceptedOf detail known targets := by
  ext fact
  simp [Operation.accepted, head, details, accepted, Assertion.acceptedOf]

theorem accepted_eq_facts (head : operation.head = some s) (none : operation.details = [])
    (accepted : s.Accepted known) : operation.accepted known = {fact | fact ∈ s.facts} := by
  ext fact
  simp [Operation.accepted, head, none, accepted]

theorem accepted_eq_empty (head : operation.head = some s) (refused : ¬ s.Accepted known) :
    operation.accepted known = ∅ := by
  ext fact
  simp [Operation.accepted, head, refused]

section Outcome

variable {α : Type} {supply : Supply} {c m : Contents} {error : ImpactError} (regular : c.Regular)
include regular

theorem settled_refused (head : operation.head = some s) (refused : ¬ s.Accepted c.shown)
    (plain : error.exhausted = false) :
    operation.Settled supply c (.error error : Except ImpactError α) c := by
  refine Or.inl ⟨plain, fun whole => refused (whole s head).1, ?_⟩
  rw [accepted_eq_empty head refused]
  exact .refl regular

theorem settled_exhausted (full : error.exhausted = true) (lacking : supply.Lacking) :
    operation.Settled supply c (.error error : Except ImpactError α) c :=
  Or.inr ⟨full, lacking, ∅, Set.empty_subset _, .refl regular, fun _ => rfl⟩

theorem settled_of_head {means : α → Contents → Prop} {x : Except ImpactError α}
    (head : operation.head = some s) (none : operation.details = [])
    (free : operation.groups c.shown = ∅) (settled : s.Settled supply c means x m) :
    operation.Settled supply c x m := by
  have details : operation.details = ([] : List Unit).map fun _ => s := none
  cases x with
  | ok value =>
      obtain ⟨accepted, gains, _⟩ := settled
      refine ⟨(whole_iff head details).mpr ⟨accepted, nofun⟩, ?_⟩
      rw [accepted_eq_facts head none accepted, free]
      exact gains
  | error error =>
      obtain ⟨rfl, ⟨full, lacking⟩ | ⟨plain, refused⟩⟩ := settled
      · exact settled_exhausted regular full lacking
      · exact settled_refused regular head refused plain

end Outcome

end Operation

theorem Assertion.accepted_union {s : Assertion} {known facts : Set Fact}
    (apart : ∀ e ∈ s.needs, .present e ∉ facts) : s.Accepted (known ∪ facts) ↔
      s.Accepted known :=
  and_congr_right fun _ => forall₂_congr fun e needed => or_iff_left (apart e needed)

theorem Assertion.acceptedOf_congr {τ : Type} {detail : τ → Assertion} {known known' : Set Fact}
    {targets : List τ} (same : ∀ t, (detail t).Accepted known ↔ (detail t).Accepted known') :
    acceptedOf detail known targets = acceptedOf detail known' targets := by
  simp only [acceptedOf, same]

/-- After its first assertion an operation is decided by what is known then, if its further
assertions need nothing that the first one adds. -/
theorem Operation.after_head {operation : Operation} {s : Assertion} {τ : Type}
    {detail : τ → Assertion}
    {targets : List τ} {known : Set Fact} (head : operation.head = some s)
    (details : operation.details = targets.map detail) (accepted : s.Accepted known)
    (apart : ∀ t, ∀ e ∈ (detail t).needs, .present e ∉ s.facts) :
    (operation.Whole known ↔ ∀ t ∈ targets,
      (detail t).Accepted (known ∪ {fact | fact ∈ s.facts})) ∧
      operation.accepted known = {fact | fact ∈ s.facts} ∪
        Assertion.acceptedOf detail (known ∪ {fact | fact ∈ s.facts}) targets := by
  have same (t : τ) :
      (detail t).Accepted (known ∪ {fact | fact ∈ s.facts}) ↔ (detail t).Accepted known :=
    Assertion.accepted_union (apart t)
  constructor
  · rw [whole_iff head details, and_iff_right accepted]
    exact forall₂_congr fun t _ => (same t).symm
  · rw [accepted_eq head details accepted, Assertion.acceptedOf_congr same]

/-- The assertion about a target, and that a caller calls it. -/
def Assertion.calling {τ : Type} (net : CallNetwork) (e : Entity) (callee : τ → Entity)
    (detail : τ → Assertion) (t : τ) : Assertion :=
  { detail t with facts := .calls net e (callee t) :: (detail t).facts }

theorem Assertion.acceptedOf_subset_calling {τ : Type} (net : CallNetwork) (e : Entity)
    (callee : τ → Entity) (detail : τ → Assertion) (known : Set Fact) (targets : List τ) :
    acceptedOf detail known targets ⊆ acceptedOf (.calling net e callee detail) known targets :=
  fun _ ⟨t, mem, accepted, stated⟩ => ⟨t, mem, accepted, List.mem_cons_of_mem _ stated⟩

/-- That there is an endpoint, which another one calls. -/
def EndpointRef.called (caller : EndpointRef) : EndpointRef → Assertion :=
  .calling .network (.endpoint caller) .endpoint EndpointRef.assertion

namespace Ensures

variable {supply : Supply} {c m : Contents} {a : NodeId} {e : Entity} {net : CallNetwork}
    {τ : Type}
  {detail : τ → Assertion} {targets : List τ}

theorem settled_of_located {other : Supply} (regular : c.Regular) {x : Except ImpactError NodeId}
    (located : c.Located e x m) :
    Assertion.Settled { needs := [e] } other c (fun id m => m.Denotes id e) x m := by
  cases x with
  | ok id =>
      obtain ⟨rfl, denotes⟩ := located
      refine ⟨⟨rfl, fun e mem => List.mem_singleton.mp mem ▸ ⟨id, denotes⟩⟩,
        ?_, denotes⟩
      exact (Gains.refl regular).congr (by simp)
  | error error =>
      obtain ⟨rfl, plain, missing⟩ := located
      exact ⟨rfl, Or.inr ⟨plain, fun accepted => missing (accepted.2 e List.mem_cons_self)⟩⟩

theorem linkOutcomes {other : Supply} {callee : τ → Entity} {outcomes : Outcomes NodeId}
    (caller : c.Denotes a e) (kind : e.kind = net.caller)
    (kinds : ∀ t, (callee t).kind = net.caller)
    (tally : Tally other c detail (fun t id m => m.Denotes id (callee t)) targets targets
      outcomes m)
    (provides : supply.Provides c
      (Assertion.acceptedOf (.calling net e callee detail) c.shown targets)) :
    Ensures supply (Inventory.linkOutcomes net a outcomes) m fun x m' => match x with
      | .ok _ => (∀ t ∈ targets, (detail t).Accepted c.shown) ∧
          c.Gains (Assertion.acceptedOf (.calling net e callee detail) c.shown targets) ∅ m'
      | .error error =>
          error.exhausted = false ∧ (¬ ∀ t ∈ targets, (detail t).Accepted c.shown) ∧
            c.Gains (Assertion.acceptedOf (.calling net e callee detail) c.shown targets) ∅ m' ∨
          error.exhausted = true ∧
            (other.Lacking ∧
              (∃ gained ⊆ Assertion.acceptedOf (.calling net e callee detail) c.shown
              targets, c.Gains gained ∅ m') ∨
            supply.Lacking ∧ ∃ gained ⊆ Assertion.acceptedOf detail c.shown targets,
              c.Gains gained ∅ m') := by
  obtain ⟨gained, some, gains, all⟩ := tally.gains
  have fewer := Assertion.acceptedOf_subset_calling net e callee detail c.shown targets
  have found (id : NodeId) (mem : id ∈ outcomes.successes) : ∃ t ∈ targets,
      (detail t).Accepted c.shown ∧ m.Denotes id (callee t) := tally.successes id mem
  have linked : .calls net e '' m.entities {t | t ∈ outcomes.successes} ⊆
      Assertion.acceptedOf (.calling net e callee detail) c.shown targets := by
    rintro _ ⟨e', ⟨id, mem, denotes⟩, rfl⟩
    obtain ⟨t, tried, accepted, meant⟩ := found id mem
    rw [denotes.entity_unique meant]
    exact ⟨t, tried, accepted, List.mem_cons_self⟩
  have whole (room : outcomes.exhausted = false) :
      gained ∪ .calls net e '' m.entities {t | t ∈ outcomes.successes} =
        Assertion.acceptedOf (.calling net e callee detail) c.shown targets := by
    refine Set.Subset.antisymm (Set.union_subset (some.trans fewer) linked) ?_
    rintro fact ⟨t, mem, accepted, stated⟩
    rcases List.mem_cons.mp stated with rfl | stated
    · obtain ⟨id, success, meant⟩ := tally.complete room t mem accepted
      exact Or.inr ⟨callee t, ⟨id, success, meant⟩, rfl⟩
    · exact Or.inl (all room ▸ ⟨t, mem, accepted, stated⟩)
  have caller' := caller.mono gains.outgrowth.extended.nodes
  refine bind (P := fun x m' => match x with
    | .ok _ => c.Gains (gained ∪ .calls net e '' m.entities {t | t ∈ outcomes.successes}) ∅ m'
    | .error error => error.exhausted = true ∧ supply.Lacking ∧ m' = m) (ofStore ?_) ?_ ?_
  · refine linkDependency gains.regular caller' (kind ▸ caller'.ofKind) (fun id mem => ?_)
      (fun nonempty none => ?_) (fun link m' gains' => ?_) fun row lacking =>
        ⟨rfl, lacking, rfl⟩
    · obtain ⟨t, _, _, meant⟩ := found id mem
      exact kinds t ▸ meant.ofKind
    · obtain ⟨id, mem⟩ := List.exists_mem_of_ne_nil _ nonempty
      obtain ⟨t, tried, accepted, _⟩ := found id mem
      exact provides m gained gains (some.trans fewer)
        ⟨_, ⟨t, tried, accepted, List.mem_cons_self⟩, none⟩
    · exact (gains.trans gains').regroup (Set.union_empty _)
  · intro link m' gains'
    have reported := tally.failures
    have lacking := tally.lacking
    obtain ⟨successes, failures⟩ := outcomes
    cases failures with
    | nil => exact pure ⟨(reported rfl).mp rfl, whole rfl ▸ gains'⟩
    | cons failure rest =>
        refine of_leads (Leads.throw _).bind_error ?_
        cases full : Outcomes.exhausted ⟨successes, failure :: rest⟩ with
        | false =>
            refine Or.inl ⟨full, fun accepted => ?_, whole full ▸ gains'⟩
            exact List.cons_ne_nil _ _ ((reported full).mpr accepted)
        | true =>
            exact Or.inr ⟨full, Or.inl ⟨lacking full, _,
              Set.union_subset (some.trans fewer) linked,
              gains'⟩⟩
  · rintro error m' ⟨full, lacking, rfl⟩
    exact Or.inr ⟨full, Or.inr ⟨lacking, gained, some, gains⟩⟩

theorem addCalls (regular : c.Regular) (caller : String) (called : List String)
    (provides : supply.Provides c ((Operation.addCalls caller called).accepted c.shown)) :
    Ensures supply (Inventory.addCalls caller called) c
      ((Operation.addCalls caller called).Settled supply c) := by
  have head : (Operation.addCalls caller called).head = some { needs := [.symbol caller] } := rfl
  have details : (Operation.addCalls caller called).details =
    called.map (.calling .code (.symbol caller) .symbol fun t => { needs := [.symbol t] }) := rfl
  refine (findAs (e := .symbol caller) regular.valid rfl _).bind ?_ ?_
  · rintro a c ⟨rfl, denotes⟩
    have accepted : Assertion.Accepted { needs := [.symbol caller] } c.shown :=
      ⟨rfl, fun e mem => List.mem_singleton.mp mem ▸ ⟨a, denotes⟩⟩
    have facts : (Operation.addCalls caller called).accepted c.shown = Assertion.acceptedOf
        (.calling .code (.symbol caller) .symbol fun t => { needs := [.symbol t] }) c.shown
          called := by
      rw [Operation.accepted_eq head details accepted]
      simp
    refine bind (collect_tally (.upTo 0) (fun t => { needs := [.symbol t] })
      (fun t id m => m.Denotes id (.symbol t)) regular
      (fun denotes grown => denotes.mono grown.extended.nodes) (fun _ _ _ _ => nofun)
      fun t _ m _ gains _ => (findAs gains.regular.valid rfl _).mono fun x m' located =>
        settled_of_located gains.regular located) ?_ ?_
    · rintro outcomes m ⟨_, ⟨⟩, tally⟩
      refine (linkOutcomes denotes rfl (fun _ => rfl) tally (facts ▸ provides)).mono
        fun x m' linked => ?_
      cases x with
      | ok link =>
          exact ⟨(Operation.whole_iff head details).mpr ⟨accepted, linked.1⟩,
            facts ▸ linked.2⟩
      | error error =>
          rcases linked with ⟨plain, refused, gains⟩ |
            ⟨full, ⟨⟨_, never⟩, _⟩ | ⟨lacking, gained, some, gains⟩⟩
          · refine Or.inl ⟨plain, fun whole => refused ?_, facts ▸ gains⟩
            exact ((Operation.whole_iff head details).mp whole).2
          · exact never.elim
          · have none : gained = ∅ := Set.subset_eq_empty some (by simp [Assertion.acceptedOf])
            exact Or.inr ⟨full, lacking, gained, none ▸ Set.empty_subset _, gains,
              fun _ => none⟩
    · rintro _ _ ⟨_, ⟨⟩, _⟩
  · rintro error c ⟨rfl, plain, missing⟩
    exact Operation.settled_refused regular head (fun accepted =>
      missing (accepted.2 _ List.mem_cons_self))
      plain

theorem addNetworkCalls (regular : c.Regular) (caller : EndpointRef) (called : List EndpointRef)
    (provides : supply.Provides c ((Operation.addNetworkCalls caller called).accepted c.shown)) :
    Ensures supply (Inventory.addNetworkCalls caller called) c
      ((Operation.addNetworkCalls caller called).Settled supply c) := by
  have head : (Operation.addNetworkCalls caller called).head = some caller.assertion := rfl
  have details : (Operation.addNetworkCalls caller called).details = called.map caller.called := rfl
  have apart (t u : EndpointRef) (e : Entity) (needed : e ∈ t.assertion.needs) :
      .present e ∉ u.assertion.facts := by
    rw [List.mem_singleton.mp needed]
    simp [EndpointRef.assertion]
  have fewer (known : Set Fact) : Assertion.acceptedOf EndpointRef.assertion known called ⊆
      Assertion.acceptedOf caller.called known called :=
    Assertion.acceptedOf_subset_calling ..
  refine (upsertEndpoint regular caller fun accepted => ?_).bind ?_ ?_
  · rw [Operation.accepted_eq head details accepted] at provides
    exact provides.step (.refl regular) (Set.empty_subset _) Set.subset_union_left
  · rintro a m₁ ⟨accepted, gains₁, denotes⟩
    obtain ⟨whole, facts⟩ := Operation.after_head head details accepted fun t => apart t caller
    rw [← gains₁.shown] at whole facts
    have both {gained : Set Fact} {m : Contents} (gains : m₁.Gains gained ∅ m) :
        c.Gains ({fact | fact ∈ caller.assertion.facts} ∪ gained) ∅ m :=
      (gains₁.trans gains).regroup (Set.union_empty _)
    rw [facts] at provides
    have later := provides.step gains₁ Set.subset_union_left Set.subset_union_right
    refine bind (collect_tally supply EndpointRef.assertion
      (fun t id m => m.Denotes id (.endpoint t)) gains₁.regular
      (fun denotes grown => denotes.mono grown.extended.nodes) apart ?_) ?_ ?_
    · intro t mem m gained gains some
      refine upsertEndpoint gains.regular t fun accepted => ?_
      have known : t.assertion.Accepted m₁.shown := by
        rw [gains.shown] at accepted
        refine (Assertion.accepted_union fun e needed new => ?_).mp accepted
        obtain ⟨u, _, _, stated⟩ := some new
        exact apart t u e needed stated
      refine later.step gains (some.trans (fewer _)) fun fact stated => fewer _ ?_
      exact ⟨t, mem, known, stated⟩
    · rintro outcomes m ⟨_, ⟨⟩, tally⟩
      refine (linkOutcomes denotes rfl (fun _ => rfl) tally later).mono fun x m' linked => ?_
      cases x with
      | ok link => exact ⟨whole.mpr linked.1, facts ▸ both linked.2⟩
      | error error =>
          rcases linked with ⟨plain, refused, gains⟩ | ⟨full, partly⟩
          · exact Or.inl ⟨plain, fun all => refused (whole.mp all), facts ▸ both gains⟩
          · obtain ⟨lacking, gained, some, gains⟩ : supply.Lacking ∧
                ∃ gained ⊆ Assertion.acceptedOf caller.called m₁.shown called,
                  m₁.Gains gained ∅ m' := by
              rcases partly with partly | ⟨lacking, gained, some, gains⟩
              · exact partly
              · exact ⟨lacking, gained, some.trans (fewer _), gains⟩
            refine Or.inr ⟨full, lacking, _, ?_, both gains, ?_⟩
            · exact facts ▸ Set.union_subset_union_right _ some
            · simp [Operation.gradual]
    · rintro _ _ ⟨_, ⟨⟩, _⟩
  · rintro error c ⟨rfl, ⟨full, lacking⟩ | ⟨plain, refused⟩⟩
    · exact Operation.settled_exhausted regular full lacking
    · exact Operation.settled_refused regular head refused plain

theorem upsertSystem (regular : c.Regular) (name : String) (parts : List Artifact)
    (provides : supply.Provides c ((Operation.upsertSystem name parts).accepted c.shown)) :
    Ensures supply (Inventory.upsertSystem name parts) c
      ((Operation.upsertSystem name parts).Settled supply c) := by
  let head : Assertion := { wellFormed := !name.isEmpty, facts := [.present (.system name)] }
  let detail (part : Artifact) : Assertion :=
    { needs := [.component part]
      facts := [.related (.system name) .composedOf (.component part)] }
  have head' : (Operation.upsertSystem name parts).head = some head := rfl
  have details : (Operation.upsertSystem name parts).details = parts.map detail := rfl
  refine require (fun refused => ?_) fun named => ?_
  · refine Operation.settled_refused regular head' (fun accepted => ?_) rfl
    exact Bool.false_ne_true (refused.symm.trans accepted.1)
  · have accepted : head.Accepted c.shown := ⟨named, nofun⟩
    obtain ⟨whole, facts⟩ := Operation.after_head head' details accepted fun part e needed => by
      rw [List.mem_singleton.mp needed]
      simp [head]
    refine bind (P := fun x m => match x with
      | .ok id => m.Denotes id (.system name) ∧ c.Gains {fact | fact ∈ head.facts} ∅ m
      | .error error => error.exhausted = true ∧ supply.Lacking ∧ m = c) (ofStore ?_) ?_ ?_
    · refine mergedId (e := .system name) regular rfl (provides.spare regular ?_)
        (fun id m denotes gains => ⟨denotes, gains.congr (by simp [head])⟩)
        fun row lacking => ⟨rfl, lacking, rfl⟩
      rw [facts]
      exact Or.inl List.mem_cons_self
    · rintro system m₁ ⟨denotes, gains₁⟩
      rw [← gains₁.shown] at whole facts
      refine bind (collect_tally (.upTo 0) detail
        (fun _ (_ : Bool) _ => True) gains₁.regular (fun _ _ => trivial) ?_ ?_) ?_ ?_
      · intro t u e needed
        rw [List.mem_singleton.mp needed]
        exact nofun
      · intro part _ m gained gains _
        exact compose gains.regular (denotes.mono gains.outgrowth.extended.nodes) part
      · rintro outcomes m ⟨_, ⟨⟩, tally⟩
        have room : outcomes.exhausted = false := by
          cases full : outcomes.exhausted with
          | false => rfl
          | true =>
              obtain ⟨_, never⟩ := tally.lacking full
              exact never.elim
        obtain ⟨gained, _, gains, all⟩ := tally.gains
        have gains : c.Gains ((Operation.upsertSystem name parts).accepted c.shown) ∅ m := by
          rw [facts, ← all room]
          exact (gains₁.trans gains).regroup (Set.union_empty _)
        have reported := tally.failures room
        obtain ⟨successes, failures⟩ := outcomes
        cases failures with
        | nil => exact pure ⟨whole.mpr (reported.mp rfl), gains⟩
        | cons failure rest =>
            refine of_leads (Leads.throw _).bind_error (Or.inl ⟨room, fun all => ?_, gains⟩)
            exact List.cons_ne_nil _ _ (reported.mpr (whole.mp all))
      · rintro _ _ ⟨_, ⟨⟩, _⟩
    · rintro error c ⟨full, lacking, rfl⟩
      exact Operation.settled_exhausted regular full lacking

end Ensures

theorem BindingRequest.entity_of_mem_keys {request : BindingRequest} {key : NodeKey}
    (mem : key ∈ request.keys) : ∃ e : Entity, e.key? = some key := by
  rw [keys, List.mem_filterMap] at mem
  obtain ⟨_, mem, rfl⟩ := mem
  simp only [List.mem_cons, List.not_mem_nil, or_false, eq_comm (a := some key),
    Option.map_eq_some_iff] at mem
  obtain ⟨artifact, _, rfl⟩ | ⟨artifact, _, rfl⟩ | ⟨artifact, _, rfl⟩ := mem
  · exact ⟨.library artifact, rfl⟩
  · exact ⟨.component artifact, rfl⟩
  · exact ⟨.asset artifact, rfl⟩

namespace Contents

variable {c : Contents}

theorem entities_requested (request : BindingRequest) :
    c.entities (c.requested request) = request.group c.shown := by
  ext e
  constructor
  · rintro ⟨x, ⟨key, mem, keyed⟩, denotes⟩
    obtain ⟨e', own⟩ := BindingRequest.entity_of_mem_keys mem
    obtain rfl := denotes.entity_unique ((denotes_iff_keyed own).mpr keyed)
    exact ⟨⟨key, mem, own⟩, x, denotes⟩
  · rintro ⟨⟨key, mem, own⟩, x, denotes⟩
    exact ⟨x, ⟨key, mem, (denotes_iff_keyed own).mp denotes⟩, denotes⟩

theorem Regular.group_mem_grouped (regular : c.Regular) {request : BindingRequest} :
    request.group c.shown ∈ c.grouped ↔ (c.bindingsOf (c.requested request)).Nonempty := by
  rw [← entities_requested]
  constructor
  · rintro ⟨b, own, same⟩
    refine ⟨b, own, Set.Subset.antisymm (regular.valid.subset_of_entities ?_ same.subset)
      (regular.valid.subset_of_entities ?_ same.symm.subset)⟩
    · exact fun t edge => regular.subject_denotes edge
    · rintro t ⟨key, mem, keyed⟩
      obtain ⟨e, own⟩ := BindingRequest.entity_of_mem_keys mem
      exact ⟨e, (denotes_iff_keyed own).mpr keyed⟩
  · rintro ⟨b, own, same⟩
    exact ⟨b, own, congrArg c.entities same⟩

end Contents

namespace Ensures

variable {supply : Supply} {c : Contents}

theorem recording (regular : c.Regular) (request : BindingRequest)
    (spare : request.group c.shown ∉ c.grouped → supply.spare c) :
    Ensures supply (Inventory.recording request) c
      (supply.Yields fun _ m => c.Gains ∅ {request.group c.shown} m) := by
  have allowed := requested_allowed (c := c) request
  have live := requested_subset_live (c := c) request
  refine leads_bind (reads_resolveTargets regular.valid request) ?_
  refine leads_bind (reads_exactBinding regular.valid live) ?_
  cases first : (NodeId.listed (c.bindingsOf (c.requested request))).head? with
  | some b =>
      have about : (c.bindingsOf (c.requested request)).Nonempty :=
        ⟨b, NodeId.mem_listed.mp (List.mem_of_mem_head? first)⟩
      have known := regular.group_mem_grouped.mpr about
      refine pure ⟨.refl regular, (Set.union_empty _).symm, ?_⟩
      exact (Set.union_eq_left.mpr (Set.singleton_subset_iff.mpr known)).symm
  | none =>
      have none : c.bindingsOf (c.requested request) = ∅ := by
        rwa [List.head?_eq_none_iff, NodeId.listed_eq_nil] at first
      have targets : {t | t ∈ NodeId.listed (c.requested request)} = c.requested request :=
        Set.ext fun t => NodeId.mem_listed
      have inserted :
          Ensures supply (Inventory.insertBinding (NodeId.listed (c.requested request))) c
          (supply.Yields fun _ m => c.Gains ∅ {request.group c.shown} m) := by
        refine yields_bind (P := fun id m => c.node? id = .none ∧ m = c.insert id .binding) ?_ ?_
        · refine insertNode nofun (spare fun known => ?_) (fun id fresh => ⟨fresh, rfl⟩) ?_
          · exact (regular.group_mem_grouped.mp known).ne_empty none
          · exact fun short row => ⟨⟨row, rfl⟩, c, short⟩
        · rintro id _ ⟨fresh, rfl⟩
          obtain ⟨added, leads⟩ := leads_linkAll (l := NodeId.listed (c.requested request))
            ⟨_, c.insert_node?_self id .binding, rfl⟩
            (targets.symm ▸ allowed_insert fresh allowed)
          rw [targets] at leads
          refine leads_bind leads (pure ?_)
          rw [← entities_requested]
          exact regular.gains_binding fresh allowed none
      exact yields_bind inserted fun _ m gains => pure gains

theorem createBinding (regular : c.Regular) (request : BindingRequest)
    (spare : request.group c.shown ∉ c.grouped → supply.spare c) :
    Ensures supply (Inventory.createBinding request) c
      ((Operation.createBinding request).Settled supply c) := by
  refine block (recording regular request spare) (fun _ m gains => ?_) fun row lacking => ?_
  · refine ⟨fun s mem => ?_, ?_⟩
    · obtain rfl := Option.mem_some.mp mem
      exact ⟨⟨rfl, nofun⟩, nofun⟩
    · exact gains.congr (by simp [Operation.accepted, Operation.head, Operation.details])
  · exact Operation.settled_exhausted regular rfl lacking

end Ensures

namespace Operation

variable {operation : Operation} {supply : Supply} {c m : Contents}

theorem Settled.map {α β : Type} {x : Except ImpactError α}
    (settled : operation.Settled supply c x m)
    (f : α → β) : operation.Settled supply c (x.map f) m := by
  cases x <;> exact settled

theorem ensures_of_head {α β : Type} {s : Assertion} {means : α → Contents → Prop}
    {program : ImpactProgram α} {answer : α → β} (regular : c.Regular)
    (head : operation.head = some s)
    (none : operation.details = []) (free : operation.groups c.shown = ∅)
    (ensures : Ensures supply program c (s.Settled supply c means)) :
    Ensures supply (answer <$> program) c (operation.Settled supply c) :=
  .map (ensures.mono fun _ _ settled => (settled_of_head regular head none free settled).map answer)

/-- Every operation that asserts something, while there are identifiers for what it may record. -/
theorem settles (regular : c.Regular) (asserts : operation.head ≠ none)
    (provides : supply.Provides c (operation.accepted c.shown))
    (spare : ∀ group ∈ operation.groups c.shown, group ∉ c.grouped → supply.spare c) :
    Ensures supply operation.perform c (operation.Settled supply c) := by
  have one {s : Assertion} (head : operation.head = some s) (none : operation.details = [])
      (accepted : s.Accepted c.shown) : supply.Provides c {fact | fact ∈ s.facts} :=
    accepted_eq_facts head none accepted ▸ provides
  have merged {e : Entity} {holds : Bool} (head : operation.head = some
        { wellFormed := holds, facts := [.present e] }) (none : operation.details = [])
      (accepted : holds = true) : supply.Provides c {.present e} := by
    have provides := one head none ⟨accepted, nofun⟩
    simpa using provides
  cases operation with
  | upsertLibrary artifact symbols =>
      exact ensures_of_head regular rfl rfl rfl
        (Ensures.upsertLibrary regular artifact symbols (one rfl rfl))
  | upsertSymbol identity =>
      exact ensures_of_head regular rfl rfl rfl
        (Ensures.merged (e := .symbol identity) regular rfl _ _ (merged rfl rfl))
  | upsertComponent artifact =>
      exact ensures_of_head regular rfl rfl rfl
        (Ensures.merged (e := .component artifact) regular rfl _ _ (merged rfl rfl))
  | upsertAsset artifact =>
      exact ensures_of_head regular rfl rfl rfl
        (Ensures.merged (e := .asset artifact) regular rfl _ _ (merged rfl rfl))
  | hostComponent guest host =>
      exact ensures_of_head regular rfl rfl rfl (Ensures.hostComponent regular guest host)
  | upsertEndpoint endpoint =>
      exact ensures_of_head regular rfl rfl rfl
        (Ensures.upsertEndpoint regular endpoint (one rfl rfl))
  | addServes endpoint symbol =>
      exact ensures_of_head regular rfl rfl rfl (Ensures.addServes regular endpoint symbol)
  | addCalls caller called =>
      exact .map ((Ensures.addCalls regular caller called provides).mono fun _ _ settled =>
        settled.map _)
  | addNetworkCalls caller called =>
      exact .map ((Ensures.addNetworkCalls regular caller called provides).mono fun _ _ settled =>
        settled.map _)
  | upsertSystem name parts =>
      exact .map ((Ensures.upsertSystem regular name parts provides).mono fun _ _ settled =>
        settled.map _)
  | createBinding request =>
      exact .map ((Ensures.createBinding regular request (spare _ rfl)).mono fun _ _ settled =>
        settled.map _)
  | _ => exact absurd rfl asserts

end Operation

end BlastRadius
