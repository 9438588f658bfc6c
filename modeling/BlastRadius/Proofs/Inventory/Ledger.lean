import BlastRadius.Proofs.Inventory.Listings
import BlastRadius.Proofs.Inventory.Loading

/-!
The facts that a client may know from the answers that it got. Each operation adds what is accepted
of it, and each removal takes away what depends on a node that is removed; identifiers and the nodes
that record calls do not matter. The structural queries list these facts.
-/

namespace BlastRadius

open Contents

namespace Entity

theorem kind_mem_kinds (e : Entity) : e.kind ∈ e.kinds := by
  cases e <;> simp [kind, kinds]

end Entity

namespace Contents

variable {c c' : Contents} {x : NodeId} {e : Entity} {fact : Fact} {kinds : List NodeKind}

theorem denotes_withoutAll :
    (c.withoutAll kinds).Denotes x e ↔ c.Denotes x e ∧
      ∀ kind ∈ kinds, kind ∉ e.kinds := by
  cases e with
  | endpoint endpoint =>
      simp only [Denotes, withoutAll_node?, Entity.kinds, List.mem_cons, List.not_mem_nil, or_false,
        not_or, Node.kind]
      constructor
      · rintro ⟨owner, ⟨component, stays⟩, found, stays'⟩
        refine ⟨⟨owner, component, found⟩, fun kind mem => ⟨?_, ?_⟩⟩
        · rintro rfl
          exact stays mem
        · rintro rfl
          exact stays' mem
      · rintro ⟨⟨owner, component, found⟩, apart⟩
        exact ⟨owner, ⟨component, fun mem => (apart _ mem).1 rfl⟩, found, fun mem =>
          (apart _ mem).2 rfl⟩
  | _ =>
      simp only [Denotes, withoutAll_node?, Entity.kinds, Entity.kind, Node.kind,
        List.mem_singleton]
      refine and_congr_right fun _ =>
        ⟨fun stays kind mem same => stays (same ▸ mem), fun apart mem => ?_⟩
      exact apart _ mem rfl

theorem edge_withoutAll {edge : Edge} {source target : NodeKind}
    (hs : edge.source ∈ c.ofKind source)
    (ht : edge.target ∈ c.ofKind target) (held : edge ∈ c.edges) (stays : source ∉ kinds)
    (stays' : target ∉ kinds) : edge ∈ (c.withoutAll kinds).edges := by
  refine mem_withoutAll_edges.mpr ⟨held, fun kind mem => ⟨fun own => ?_, fun own => ?_⟩⟩
  · exact stays (ofKind_eq hs own ▸ mem)
  · exact stays' (ofKind_eq ht own ▸ mem)

theorem shown_withoutAll (c : Contents) (kinds : List NodeKind) :
    (c.withoutAll kinds).shown = {fact ∈ c.shown | ∀ kind ∈ kinds, kind ∉ fact.kinds} := by
  have stays {e : Entity} (apart : ∀ kind ∈ kinds, kind ∉ e.kinds) : e.kind ∉ kinds :=
    fun mem => apart _ mem e.kind_mem_kinds
  ext fact
  cases fact with
  | present entity =>
      constructor
      · rintro ⟨x, denotes⟩
        obtain ⟨denotes, apart⟩ := denotes_withoutAll.mp denotes
        exact ⟨⟨x, denotes⟩, apart⟩
      · rintro ⟨⟨x, denotes⟩, apart⟩
        exact ⟨x, denotes_withoutAll.mpr ⟨denotes, apart⟩⟩
  | related source relation target =>
      constructor
      · rintro ⟨x, y, hx, hy, edge⟩
        obtain ⟨hx, apart⟩ := denotes_withoutAll.mp hx
        obtain ⟨hy, apart'⟩ := denotes_withoutAll.mp hy
        refine ⟨⟨x, y, hx, hy, (mem_withoutAll_edges.mp edge).1⟩, fun kind mem own => ?_⟩
        exact (List.mem_append.mp own).elim (apart kind mem) (apart' kind mem)
      · rintro ⟨⟨x, y, hx, hy, edge⟩, apart⟩
        have first (kind : NodeKind) (mem : kind ∈ kinds) : kind ∉ source.kinds :=
          fun own => apart kind mem (List.mem_append_left _ own)
        have second (kind : NodeKind) (mem : kind ∈ kinds) : kind ∉ target.kinds :=
          fun own => apart kind mem (List.mem_append_right _ own)
        exact ⟨x, y, denotes_withoutAll.mpr ⟨hx, first⟩,
          denotes_withoutAll.mpr ⟨hy, second⟩,
          edge_withoutAll hx.ofKind hy.ofKind edge (stays first) (stays second)⟩
  | calls net source target =>
      constructor
      · rintro ⟨x, y, hx, hy, r, own, calling, called⟩
        obtain ⟨hx, apart⟩ := denotes_withoutAll.mp hx
        obtain ⟨hy, apart'⟩ := denotes_withoutAll.mp hy
        obtain ⟨own, record⟩ := mem_withoutAll_ofKind.mp own
        refine ⟨⟨x, y, hx, hy, r, own, (mem_withoutAll_edges.mp calling).1,
          (mem_withoutAll_edges.mp called).1⟩, fun kind mem dependent => ?_⟩
        rcases List.mem_cons.mp dependent with rfl | dependent
        · exact record mem
        · exact (List.mem_append.mp dependent).elim (apart kind mem) (apart' kind mem)
      · rintro ⟨⟨x, y, hx, hy, r, own, calling, called⟩, apart⟩
        have record : net.record.kind ∉ kinds := fun mem => apart _ mem List.mem_cons_self
        have first (kind : NodeKind) (mem : kind ∈ kinds) : kind ∉ source.kinds :=
          fun own => apart kind mem (List.mem_cons_of_mem _ (List.mem_append_left _ own))
        have second (kind : NodeKind) (mem : kind ∈ kinds) : kind ∉ target.kinds :=
          fun own => apart kind mem (List.mem_cons_of_mem _ (List.mem_append_right _ own))
        exact ⟨x, y, denotes_withoutAll.mpr ⟨hx, first⟩,
          denotes_withoutAll.mpr ⟨hy, second⟩, r,
          mem_withoutAll_ofKind.mpr ⟨own, record⟩,
          edge_withoutAll own hx.ofKind calling record (stays first),
          edge_withoutAll own hy.ofKind called record (stays second)⟩

/-- The same facts are shown, where endpoints are placed. -/
def ShownStay (c c' : Contents) : Prop := c.Placed → c'.Placed ∧ c'.shown = c.shown

namespace ShownStay

theorem refl (c : Contents) : ShownStay c c := fun placed => ⟨placed, rfl⟩

theorem trans {a b c : Contents} (first : ShownStay a b) (second : ShownStay b c) :
    ShownStay a c := by
  intro placed
  obtain ⟨placed', same⟩ := first placed
  obtain ⟨placed'', same'⟩ := second placed'
  exact ⟨placed'', same'.trans same⟩

theorem marks {q : Call} (marks : q.marks = true) (change : c.Change q c') : ShownStay c c' := by
  intro placed
  refine ⟨placed.change change (Call.untouched_of_plain (Call.plain_of_marks marks)).1, ?_⟩
  cases change with
  | none => rfl
  | mark => exact shown_congr rfl rfl
  | unmark => exact shown_congr rfl rfl
  | _ => cases marks

theorem vulnerability {identity : Option String}
    (change : c.Change (.insertNode (.vulnerability identity)) c') : ShownStay c c' := by
  intro placed
  refine ⟨placed.change change rfl, ?_⟩
  cases change with
  | none => rfl
  | node fresh free =>
      refine placed.shown_insert_none fresh
        (not_denotes ⟨_, insert_node?_self _ _, rfl⟩ fun e => ?_)
      cases e <;> exact nofun

theorem threatens {v t : NodeId} (change : c.Change (.insertEdge ⟨v, .threatens, t⟩) c') :
    ShownStay c c' := by
  intro placed
  refine ⟨placed.change change rfl, ?_⟩
  cases change with
  | none => rfl
  | edge hs ht permitted =>
      have own : v ∈ c.ofKind .vulnerability := by
        have schema : ∀ p ∈ Relation.permitted, p.1 = .threatens →
            p.2.1 = .vulnerability := by
          decide
        exact ⟨_, hs, schema _ (Relation.mem_permitted permitted) rfl⟩
      ext fact
      rw [mem_shown_link (by decide : Relation.threatens ≠ .caller ∧
        Relation.threatens ≠ .callees)]
      refine or_iff_left fun ⟨e, _, denotes, _⟩ => ?_
      exact not_denotes own (fun e => by cases e <;> exact nofun) e denotes

end ShownStay

end Contents

theorem allowsMarks_shownStay : AllowsMarks (CallKeeps Tried ShownStay)
    (BlockKeeps Tried ShownStay) where
  call marks _ _ _ tried := .marks marks tried.change
  seeding _ := keeps_seeding ShownStay.refl ShownStay.trans (keeps_call (.marks rfl))
    fun _ => keeps_call (.marks rfl)

theorem keeps_createVulnerability_shown (identity : Option String) (symbol : String) :
    Keeps ShownStay (Inventory.createVulnerability identity symbol) := by
  have block :
      KeepsBlock ShownStay (Inventory.registering (Inventory.normalized identity) symbol) :=
    keeps_registering ShownStay.refl ShownStay.trans (fun _ => keeps_call (.marks rfl))
      (keeps_call .vulnerability) fun _ _ => keeps_call .threatens
  refine .bind (EachStep.atomically block).ofStore fun registered => ?_
  cases registered with
  | some registration => exact .pure registration
  | none => exact .throw _

namespace Operation

variable {operation : Operation} {c c' : Contents} {x : Except ImpactError Answer}

theorem keeps_shown (asserts : operation.head = none) (nothing : operation.removed = [])
    (other : ∀ fixture, operation ≠ .loadFixture fixture) :
      Keeps ShownStay operation.perform := by
  have allows := allowsMarks_shownStay
  cases operation with
  | findEndpoint endpoint => exact .asking allows.read rfl
  | createVulnerability identity symbol =>
      exact (keeps_createVulnerability_shown identity symbol).map _
  | seed identity => exact (allows.seed identity).map _
  | run config identity => exact (allows.run config identity).map _
  | propagate config => exact (allows.propagate config).map _
  | runStage stage => exact (allows.execute _ stage).map _
  | marked kind => exact .asking allows.read rfl
  | radius => exact .asking allows.read rfl
  | library artifact => exact .asking allows.read rfl
  | component artifact => exact .asking allows.read rfl
  | callees symbol => exact .asking allows.read rfl
  | flowchart => exact .asking allows.read rfl
  | resetMarks => exact (allows.marking rfl).ofStore.map _
  | resetKinds kinds =>
      have removing : KeepsBlock ShownStay (Query.removing (Query.withEndpoints kinds)) :=
        keepsBlock_removing fun c => by
          rw [show Query.withEndpoints kinds = [] from nothing]
          exact .refl c
      exact (EachStep.bind (EachStep.atomically removing).ofStore fun _ => .pure _).map _
  | loadFixture fixture => exact absurd rfl (other fixture)
  | reset => cases nothing
  | resetDomain domain => cases domain <;> cases nothing
  | _ => cases asserts

/-- Whether an operation failed because identifiers had run out. -/
def ranOut : Except ImpactError Answer → Bool
  | .ok _ => false
  | .error error => error.exhausted

/-- What may be known after an operation: what is accepted is added and what depends on removed
nodes is forgotten. When identifiers run out nothing is added, or a part of it by operations that
record one thing after another. -/
def Tells (operation : Operation) (answer : Except ImpactError Answer) (known known' : Set Fact) :
    Prop :=
  if ranOut answer = true then known ⊆ known' ∧ known' ⊆ operation.performed known ∧
    (operation.gradual = false → known' = known)
  else known' = operation.performed known

theorem performed_eq (single : ∀ fixture, operation ≠ .loadFixture fixture) (known : Set Fact) :
    operation.performed known =
      {fact ∈ known ∪ operation.accepted known | ∀ kind ∈ operation.removed,
        kind ∉ fact.kinds} := by
  cases operation <;> first | rfl | exact absurd rfl (single _)

theorem performed_of_keeping (single : ∀ fixture, operation ≠ .loadFixture fixture)
    (nothing : operation.removed = []) (known : Set Fact) :
    operation.performed known = known ∪ operation.accepted known := by
  ext fact
  simp [performed_eq single, nothing]

theorem accepted_of_silent (asserts : operation.head = none) (known : Set Fact) :
    operation.accepted known = ∅ := by
  ext fact
  simp [accepted, asserts]

theorem head_of_removed (removes : operation.removed ≠ []) : operation.head = none := by
  cases operation <;> first | rfl | exact absurd rfl removes

theorem runs_removal_ok (removes : operation.removed ≠ [])
    (ran : operation.perform.run.Runs Tried c x c') : ranOut x = false := by
  cases operation with
  | reset =>
      have leads : Leads Operation.reset.perform.run c (.ok .done) .empty :=
        (Leads.ofStore (Leads.call (q := .reset) rfl)).map fun _ => Answer.done
      rw [(leads.unique_of_tried ran).1]
      rfl
  | resetKinds kinds =>
      rw [(((leads_resetKinds kinds).map Answer.removed).unique_of_tried ran).1]
      rfl
  | resetDomain domain =>
      rw [(((leads_resetKinds domain.kinds).map Answer.removed).unique_of_tried ran).1]
      rfl
  | _ => exact absurd rfl removes

theorem tells_removal (regular : c.Regular) (removes : operation.removed ≠ [])
    (ran : operation.perform.run.Runs Tried c x c') : operation.Tells x c.shown c'.shown := by
  have single (fixture : Fixture) (same : operation = .loadFixture fixture) : False := by
    subst same
    exact removes rfl
  rw [Tells, if_neg (by simp [runs_removal_ok removes ran]), runs_removal regular.valid removes ran,
    shown_withoutAll, performed_eq single, accepted_of_silent (head_of_removed removes),
      Set.union_empty]

theorem tells_of_same (same : c'.shown = c.shown)
    (performed : operation.performed c.shown = c.shown) : operation.Tells x c.shown c'.shown := by
  rw [Tells, same, performed]
  split
  · exact ⟨subset_rfl, subset_rfl, fun _ => rfl⟩
  · rfl

theorem Settled.tells {supply : Supply} (settled : operation.Settled supply c x c')
    (performed : operation.performed c.shown = c.shown ∪ operation.accepted c.shown) :
    operation.Tells x c.shown c'.shown := by
  rw [Tells, performed]
  cases x with
  | ok answer => exact settled.2.shown
  | error error =>
      rcases settled with ⟨plain, _, gains⟩ | ⟨full, _, gained, some, gains, single⟩
      · rw [if_neg (by simp [ranOut, plain])]
        exact gains.shown
      · rw [if_pos (by simpa [ranOut] using full), gains.shown]
        refine ⟨Set.subset_union_left, Set.union_subset_union_right _ some, fun gradual => ?_⟩
        rw [single gradual, Set.union_empty]

theorem tells_loadFixture (regular : c.Regular) {fixture : Fixture}
    (ran : (loadFixture fixture).perform.run.Runs Tried c x c') :
    (loadFixture fixture).Tells x c.shown c'.shown := by
  obtain ⟨y, loading, rfl⟩ := runs_exceptT_map.mp ran
  rw [Inventory.loadFixture_eq] at loading
  have entries : Ensures .trying (Inventory.forEach perform fixture.entries) c
      (Entered .trying c fixture.entries) :=
    entered regular (fun _ mem => fixture.entries_assert mem) fun _ _ _ _ _ => trivial
  have later : Keeps ShownStay (Inventory.forEach (fun entry =>
      Inventory.createVulnerability entry.identity entry.symbol)
        fixture.vulnerabilities >>= fun _ =>
        Inventory.measured) :=
    .bind (.forEach fun entry => keeps_createVulnerability_shown entry.identity entry.symbol)
      fun _ =>
      .bind (allowsMarks_shownStay.marking rfl).ofStore fun _ => .pure _
  refine (entries.bind (Q := fun x m => (loadFixture fixture).Tells (x.map .summary)
    c.shown m.shown)
    ?_ ?_).runs loading
  · rintro _ m ⟨_, gains⟩
    refine Program.Ensures.of_runs fun x m' rest => ?_
    have same :=
      (Program.Keeps.runs ShownStay.refl ShownStay.trans later rest gains.regular.toPlaced).2
    have old := subset_known c.shown fixture.entries
    rw [Tells, same, gains.shown, Set.union_eq_right.mpr old]
    split
    · exact ⟨old, subset_rfl, nofun⟩
    · rfl
  · rintro error m (⟨plain, _, groups, gains⟩ | ⟨full, _, gained, some, groups, gains⟩)
    · have old := subset_known c.shown fixture.entries
      rw [Tells, if_neg (by simp [ranOut, Except.map, plain]), gains.shown,
        Set.union_eq_right.mpr old]
      rfl
    · rw [Tells, if_pos (by simpa [ranOut, Except.map] using full), gains.shown]
      refine ⟨Set.subset_union_left, Set.union_subset (subset_known _ _) some, nofun⟩

/-- After every operation the contents show what may be known then. -/
theorem tells (regular : c.Regular) (ran : operation.perform.run.Runs Tried c x c') :
    operation.Tells x c.shown c'.shown := by
  by_cases removes : operation.removed = []
  · by_cases single : ∃ fixture, operation = .loadFixture fixture
    · obtain ⟨fixture, rfl⟩ := single
      exact tells_loadFixture regular ran
    · have other (fixture : Fixture) : operation ≠ .loadFixture fixture := fun same =>
        single ⟨fixture, same⟩
      have performed := performed_of_keeping other removes c.shown
      by_cases asserts : operation.head = none
      · have stays := Program.Keeps.runs ShownStay.refl ShownStay.trans
          (keeps_shown asserts removes other) ran regular.toPlaced
        rw [accepted_of_silent asserts, Set.union_empty] at performed
        exact tells_of_same stays.2 performed
      · have settled : Ensures .trying operation.perform c (operation.Settled .trying c) :=
          settles regular asserts (fun _ _ _ _ _ => trivial) fun _ _ _ => trivial
        exact (settled.runs ran).tells performed
  · exact tells_removal regular removes ran

end Operation

namespace Medium

variable {medium : Medium} {operations : List Operation}

/-- What may be known after operations, none of which anything was known before. -/
inductive Told (medium : Medium) : List Operation → Set Fact → Prop where
  | nothing : Told medium [] ∅
  | more {operations : List Operation} {operation : Operation} {known known' : Set Fact}
      (before : Told medium operations known)
      (tells : operation.Tells (operation.on medium.store (medium.reached operations)).1
        known known') :
      Told medium (operations ++ [operation]) known'

theorem contents_regular (fits : medium.Fits operations) : (medium.contents operations).Regular :=
  have recorded := contents_recorded fits
  ⟨contents_invariant .empty keeps_places fits, recorded.records, recorded.callers⟩

theorem empty_shown : Contents.empty.shown = ∅ := by
  have nothing {x : NodeId} {e : Entity} (denotes : Contents.empty.Denotes x e) : False := by
    obtain ⟨_, found⟩ := denotes.live
    cases found
  refine Set.eq_empty_of_forall_notMem fun fact shows => ?_
  cases fact with
  | present entity => exact nothing shows.choose_spec
  | related source relation target =>
      obtain ⟨x, y, denotes, _⟩ := shows
      exact nothing denotes
  | calls net caller callee =>
      obtain ⟨x, y, denotes, _⟩ := shows
      exact nothing denotes

theorem told_shown (fits : medium.Fits operations) :
    medium.Told operations (medium.contents operations).shown := by
  induction operations using List.reverseRecOn with
  | nil =>
      rw [contents_nil, empty_shown]
      exact .nothing
  | append_singleton before operation ih =>
      have first := fits.before (List.prefix_append before [operation])
      exact .more (ih first) (Operation.tells (contents_regular first)
        (performed fits (reached_sound first)).1)

/-- While identifiers do not run out, what operations do to what is known
depends on nothing else. -/
theorem Told.eq_performed {known : Set Fact} (told : medium.Told operations known)
    (enough : ∀ before operation, before ++ [operation] <+: operations →
      Operation.ranOut (operation.on medium.store (medium.reached before)).1 = false) :
    known = operations.foldl (fun known operation => operation.performed known) ∅ := by
  induction told with
  | nothing => rfl
  | @more operations operation known known' before tells ih =>
      have first := ih fun before' other among =>
        enough before' other (among.trans (List.prefix_append _ _))
      rw [Operation.Tells,
        if_neg (by simp [enough operations operation (List.prefix_refl _)])] at tells
      rw [tells, first, List.foldl_append]
      rfl

/-- After any operations, those that failed and removals included, the structural
queries list exactly what was told: what each operation added of what it was given, less
what removals took away. -/
theorem queries_list_known (medium : Medium) {operations : List Operation}
    (fits : medium.Fits operations) : ∃ known, medium.Told operations known ∧
      ((∀ before operation, before ++ [operation] <+: operations →
          Operation.ranOut (operation.on medium.store (medium.reached before)).1 = false) →
        known = operations.foldl (fun known operation => operation.performed known) ∅) ∧
      ∀ query : Operation,
        query.Describes known (query.on medium.store (medium.reached operations)).1 := by
  have told := told_shown fits
  refine ⟨_, told, told.eq_performed, fun query => ?_⟩
  cases structural : query.structural with
  | false => exact Operation.describes_of_not_structural structural
  | true =>
      obtain ⟨answer, leads, describes⟩ := (contents_regular fits).describes structural
      obtain ⟨s, ran, _⟩ := medium.run_of_leads (reached_sound fits) leads
      rw [Operation.on, ran]
      exact describes

/-- Of two callees one is refused, and a component is removed again. -/
theorem queries_list_known_after_removal :
    let operations : List Operation := [.upsertComponent ⟨"web", "1.0"⟩,
      .upsertLibrary ⟨"core", "2.0"⟩ ["b", "a"], .addCalls "a" ["b", "c"],
        .resetKinds [.component]]
    let answer (query : Operation) := (query.on Medium.database.store
      (Medium.database.reached operations)).1
    Medium.database.Fits operations ∧ ∃ known, Medium.database.Told operations known ∧
      .present (.component ⟨"web", "1.0"⟩) ∉ known ∧ .present (.symbol "c") ∉ known ∧
      (∃ view, answer (.library ⟨"core", "2.0"⟩) = .ok (.library view) ∧
        Lists Text.Before view.symbols
        {symbol | .related (.library ⟨"core", "2.0"⟩) .provides (.symbol symbol) ∈ known}) ∧
      ∃ texts, answer (.callees "a") = .ok (.texts texts) ∧ Lists Text.Before texts
        {callee | .calls .code (.symbol "a") (.symbol callee) ∈ known} := by
  intro operations answer
  have fits : Medium.database.Fits operations := fun _ _ _ => trivial
  obtain ⟨known, told, _, describes⟩ := queries_list_known .database fits
  have component : (answer (.component ⟨"web", "1.0"⟩)).isOk = false := by decide +kernel
  have symbol : (answer (.callees "c")).isOk = false := by decide +kernel
  have library : (answer (.library ⟨"core", "2.0"⟩)).isOk = true := by decide +kernel
  have callees : (answer (.callees "a")).isOk = true := by decide +kernel
  refine ⟨fits, known, told, ?_, ?_, ?_, ?_⟩
  · rcases describes (.component ⟨"web", "1.0"⟩) with
      ⟨missing, _⟩ | ⟨_, view, found, _⟩
    · exact missing
    · rw [show answer (.component ⟨"web", "1.0"⟩) = _ from found] at component
      cases component
  · rcases describes (.callees "c") with ⟨missing, _⟩ | ⟨_, texts, found, _⟩
    · exact missing
    · rw [show answer (.callees "c") = _ from found] at symbol
      cases symbol
  · rcases describes (.library ⟨"core", "2.0"⟩) with
      ⟨_, refused⟩ | ⟨_, view, found, _, lists⟩
    · rw [show answer (.library ⟨"core", "2.0"⟩) = _ from refused] at library
      cases library
    · exact ⟨view, found, lists⟩
  · rcases describes (.callees "a") with ⟨_, refused⟩ | ⟨_, texts, found, lists⟩
    · rw [show answer (.callees "a") = _ from refused] at callees
      cases callees
    · exact ⟨texts, found, lists⟩

end Medium

end BlastRadius
