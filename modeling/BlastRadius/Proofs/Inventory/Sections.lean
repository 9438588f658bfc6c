import BlastRadius.Proofs.Inventory.Loading

/-!
The sections of a fixture. No operation of a section depends on what another one of the same section
records, so that their order makes no difference, and once everything was accepted it is accepted
again and records nothing.
-/

namespace BlastRadius

theorem Assertion.Accepted.mono {s : Assertion} {known known' : Set Fact}
    (accepted : s.Accepted known)
    (more : known ⊆ known') : s.Accepted known' :=
  ⟨accepted.1, fun e needed => more (accepted.2 e needed)⟩

theorem BindingRequest.group_union (request : BindingRequest) {known facts : Set Fact}
    (other : ∀ e, .present e ∈ facts → e.kind = .system) :
    request.group (known ∪ facts) = request.group known := by
  ext e
  refine and_congr_right fun ⟨key, mem, own⟩ => or_iff_left fun added => ?_
  obtain ⟨name, rfl⟩ : ∃ name, e = .system name := by
    have kind := other e added
    cases e with
    | system name => exact ⟨name, rfl⟩
    | _ => cases kind
  cases own
  simp [keys] at mem

namespace Operation

variable {operation : Operation} {known known' facts : Set Fact} {operations rest : List Operation}

def assertions (operation : Operation) : List Assertion :=
  operation.head.toList ++ operation.details

/-- The facts that an operation asserts, whether they are accepted or not. -/
def asserted (operation : Operation) : Set Fact :=
  {fact | ∃ s ∈ operation.assertions, fact ∈ s.facts}

theorem details_of_silent (silent : operation.head = none) : operation.details = [] := by
  cases operation <;> first | rfl | cases silent

theorem whole_iff_all : operation.Whole known ↔
    ∀ s ∈ operation.assertions, s.Accepted known := by
  cases head : operation.head with
  | none => simp [Whole, assertions, head, details_of_silent head]
  | some s => simp [Whole, assertions, head]

theorem accepted_of_whole (whole : operation.Whole known) :
    operation.accepted known = operation.asserted := by
  rw [whole_iff_all] at whole
  cases head : operation.head with
  | none =>
      ext fact
      simp [accepted, asserted, assertions, head, details_of_silent head]
  | some s =>
      simp only [assertions, head, Option.toList_some, List.cons_append, List.nil_append,
        List.forall_mem_cons] at whole
      ext fact
      simp only [accepted, asserted, assertions, head, Option.mem_some, exists_eq_left',
        Option.toList_some, List.cons_append, List.nil_append, List.exists_mem_cons_iff,
        Set.mem_ofPred_eq, whole.1, true_and]
      refine or_congr_right (exists_congr fun t => and_congr_right fun mem => ?_)
      exact and_iff_right (whole.2 t mem)

theorem Whole.mono (whole : operation.Whole known) (more : known ⊆ known') :
    operation.Whole known' :=
  whole_iff_all.mpr fun s mem => (whole_iff_all.mp whole s mem).mono more

theorem whole_union
    (apart : ∀ s ∈ operation.assertions, ∀ e ∈ s.needs, .present e ∉ facts) :
    operation.Whole (known ∪ facts) ↔ operation.Whole known := by
  rw [whole_iff_all, whole_iff_all]
  exact forall₂_congr fun s mem => Assertion.accepted_union (apart s mem)

theorem AllWhole.known_eq (all : AllWhole known operations) : Operation.known known operations =
    known ∪ {fact | ∃ operation ∈ operations, fact ∈ operation.asserted} := by
  induction operations generalizing known with
  | nil =>
      ext fact
      simp [Operation.known]
  | cons operation rest ih =>
      rw [known_cons_of_whole all.1, ih all.2, accepted_of_whole all.1, Set.union_assoc]
      refine congrArg (known ∪ ·) (Set.ext fun fact => ?_)
      simp

theorem allWhole_append : AllWhole known (operations ++ rest) ↔
    AllWhole known operations ∧ AllWhole (Operation.known known operations) rest := by
  induction operations generalizing known with
  | nil => simp [AllWhole, Operation.known]
  | cons operation others ih =>
      rw [List.cons_append, AllWhole, AllWhole, ih, and_assoc]
      exact and_congr_right fun whole => by rw [known_cons_of_whole whole]

theorem known_append (all : AllWhole known operations) :
    Operation.known known (operations ++ rest) =
    Operation.known (Operation.known known operations) rest := by
  induction operations generalizing known with
  | nil => rfl
  | cons operation others ih =>
      rw [List.cons_append, known_cons_of_whole all.1, known_cons_of_whole all.1, ih all.2]

theorem groupsOf_append (all : AllWhole known operations) : groupsOf known (operations ++ rest) =
    groupsOf known operations ∪ groupsOf (Operation.known known operations) rest := by
  induction operations generalizing known with
  | nil => simp [groupsOf, Operation.known]
  | cons operation others ih =>
      rw [List.cons_append, groupsOf, groupsOf, ih all.2, known_cons_of_whole all.1,
        Set.union_assoc]

theorem AllWhole.again (all : AllWhole known operations)
    (recorded : Operation.known known operations ⊆ known') :
    AllWhole known' operations ∧ Operation.known known' operations = known' := by
  induction operations generalizing known with
  | nil => exact ⟨trivial, rfl⟩
  | cons operation rest ih =>
      have old := (subset_known known (operation :: rest)).trans recorded
      have whole := all.1.mono old
      have same : known' ∪ operation.accepted known' = known' := by
        rw [accepted_of_whole whole, ← accepted_of_whole all.1]
        exact Set.union_eq_left.mpr ((accepted_subset_known operation known rest).trans recorded)
      rw [known_cons_of_whole all.1] at recorded
      rw [AllWhole, known_cons_of_whole whole, same]
      obtain ⟨later, unchanged⟩ := ih all.2 recorded
      exact ⟨⟨whole, later⟩, unchanged⟩

/-- None of the operations needs an entity that another one records. -/
def Independent (operations : List Operation) : Prop :=
  ∀ operation ∈ operations, ∀ other ∈ operations,
    ∀ s ∈ operation.assertions, ∀ e ∈ s.needs, .present e ∉ other.asserted

theorem Independent.allWhole_iff (independent : Independent operations) :
    AllWhole known operations ↔ ∀ operation ∈ operations, operation.Whole known := by
  induction operations generalizing known with
  | nil => simp [AllWhole]
  | cons operation rest ih =>
      rw [AllWhole, List.forall_mem_cons]
      refine and_congr_right fun whole => ?_
      rw [ih fun o mem o' mem' => independent o (List.mem_cons_of_mem _ mem) o'
        (List.mem_cons_of_mem _ mem'), accepted_of_whole whole]
      refine forall₂_congr fun other mem => whole_union ?_
      exact independent other (List.mem_cons_of_mem _ mem) operation List.mem_cons_self

/-- The kinds of the entities that an operation needs. -/
def requires : Operation → List NodeKind
  | addCalls .. => [.symbol]
  | hostComponent .. => [.component, .asset]
  | upsertEndpoint _ | addNetworkCalls .. | upsertSystem .. => [.component]
  | addServes .. => [.endpoint, .symbol]
  | _ => []

/-- The kinds of the entities that an operation records. -/
def enters : Operation → List NodeKind
  | upsertLibrary .. => [.library, .symbol]
  | upsertSymbol _ => [.symbol]
  | upsertComponent _ => [.component]
  | upsertAsset _ => [.asset]
  | upsertSystem .. => [.system]
  | upsertEndpoint _ | addNetworkCalls .. => [.endpoint]
  | _ => []

theorem requires_all (operation : Operation) :
    ∀ s ∈ operation.assertions, ∀ e ∈ s.needs, e.kind ∈ operation.requires := by
  cases operation <;>
    simp [assertions, head, details, requires, Entity.kind, EndpointRef.assertion,
      LibraryEntry.assertion]

theorem enters_all (operation : Operation) (e : Entity)
    (stated : .present e ∈ operation.asserted) :
    e.kind ∈ operation.enters := by
  cases e <;> revert stated <;> cases operation <;>
    simp [asserted, assertions, head, details, enters, Entity.kind, EndpointRef.assertion,
      LibraryEntry.assertion, Artifact.provisions]

theorem independent_map {τ : Type} {of : τ → Operation}
    (apart : ∀ t u, ∀ kind ∈ (of t).requires, kind ∉ (of u).enters) (l : List τ) :
    Independent (l.map of) := by
  intro operation mem other mem' s stated e needed present
  obtain ⟨t, _, rfl⟩ := List.mem_map.mp mem
  obtain ⟨u, _, rfl⟩ := List.mem_map.mp mem'
  exact apart t u e.kind (requires_all _ s stated e needed) (enters_all _ e present)

/-- Operations that assert the same facts under the same conditions. -/
structure Restates (operation other : Operation) : Prop where
  whole : ∀ known, operation.Whole known ↔ other.Whole known
  asserted : operation.asserted = other.asserted

/-- Each operation has one with the same assertions on the other side. -/
def Rearranged (operations others : List Operation) : Prop :=
  (∀ operation ∈ operations, ∃ other ∈ others, operation.Restates other) ∧
    ∀ other ∈ others, ∃ operation ∈ operations, operation.Restates other

theorem Rearranged.asserted {others : List Operation} (rearranged : Rearranged operations others)
    (fact : Fact) :
    (∃ other ∈ others, fact ∈ other.asserted) ↔
      ∃ operation ∈ operations, fact ∈ operation.asserted := by
  constructor
  · rintro ⟨other, mem, stated⟩
    obtain ⟨operation, mem', restates⟩ := rearranged.2 other mem
    exact ⟨operation, mem', restates.asserted ▸ stated⟩
  · rintro ⟨operation, mem, stated⟩
    obtain ⟨other, mem', restates⟩ := rearranged.1 operation mem
    exact ⟨other, mem', restates.asserted ▸ stated⟩

/-- In sections whose operations do not depend on each other, the order makes no difference. -/
theorem allWhole_rearranged {sections others : List (List Operation)}
    (first : ∀ operations ∈ sections, Independent operations)
    (second : ∀ operations ∈ others, Independent operations)
    (rearranged : List.Forall₂ Rearranged sections others)
    (all : AllWhole known sections.flatten) :
    AllWhole known others.flatten ∧
      Operation.known known others.flatten = Operation.known known sections.flatten := by
  induction rearranged generalizing known with
  | nil => exact ⟨trivial, rfl⟩
  | @cons operations operations' sections others here _ ih =>
      rw [List.flatten_cons, allWhole_append] at all
      obtain ⟨whole, later⟩ := all
      have each := (first operations List.mem_cons_self).allWhole_iff.mp whole
      have whole' : AllWhole known operations' := by
        refine (second operations' List.mem_cons_self).allWhole_iff.mpr fun other mem => ?_
        obtain ⟨operation, mem', restates⟩ := here.2 other mem
        exact (restates.whole known).mp (each operation mem')
      have same : Operation.known known operations' = Operation.known known operations := by
        rw [whole'.known_eq, whole.known_eq]
        exact congrArg (known ∪ ·) (Set.ext here.asserted)
      obtain ⟨later', same'⟩ := ih (fun o mem => first o (List.mem_cons_of_mem _ mem))
        (fun o mem => second o (List.mem_cons_of_mem _ mem)) later
      rw [List.flatten_cons, List.flatten_cons, allWhole_append, known_append whole',
        known_append whole, same]
      exact ⟨⟨whole', later'⟩, same'⟩

theorem groupsOf_of_none (none : ∀ operation ∈ operations, ∀ known,
    operation.groups known = ∅)
    (known : Set Fact) : groupsOf known operations = ∅ := by
  induction operations generalizing known with
  | nil => rfl
  | cons operation rest ih =>
      rw [groupsOf, none operation List.mem_cons_self,
        ih fun other mem => none other (List.mem_cons_of_mem _ mem), Set.union_empty]

theorem groupsOf_bindings (requests : List BindingRequest) (known : Set Fact) :
    groupsOf known (requests.map createBinding) = (BindingRequest.group · known) ''
      {r | r ∈ requests} ∧
      Operation.known known (requests.map createBinding) = known := by
  induction requests with
  | nil => simp [groupsOf, Operation.known]
  | cons request rest ih =>
      have nothing : (createBinding request).accepted known = ∅ := by
        ext fact
        simp [accepted, head, details]
      have whole : (createBinding request).Whole known := by
        simp [Whole, head, details, Assertion.Accepted]
      rw [List.map_cons, groupsOf, known_cons_of_whole whole, nothing, Set.union_empty, ih.1]
      refine ⟨Set.ext fun group => ?_, ih.2⟩
      simp [groups, eq_comm]

end Operation

namespace Fixture

/-- The operations that load the sections up to the vulnerabilities. -/
def sections (fixture : Fixture) : List (List Operation) :=
  [fixture.symbols.map .upsertSymbol,
    fixture.libraries.map fun entry => .upsertLibrary entry.library entry.symbols,
    fixture.calls.map fun entry => .addCalls entry.caller entry.callees,
    fixture.components.map .upsertComponent, fixture.assets.map .upsertAsset,
    fixture.hosting.map fun entry => .hostComponent entry.component entry.asset,
    fixture.endpoints.map .upsertEndpoint,
    fixture.serves.map fun entry => .addServes entry.endpoint entry.symbol,
    fixture.network.map fun entry => .addNetworkCalls entry.caller entry.callees,
    fixture.bindings.map .createBinding,
    fixture.systems.map fun entry => .upsertSystem entry.name entry.components]

theorem entries_eq (fixture : Fixture) : fixture.entries = fixture.sections.flatten := by
  simp [entries, sections]

theorem sections_independent (fixture : Fixture) :
    ∀ operations ∈ fixture.sections, Operation.Independent operations := by
  simp only [sections, List.forall_mem_cons]
  refine ⟨?_, ?_, ?_, ?_, ?_, ?_, ?_, ?_, ?_, ?_, ?_, nofun⟩ <;>
    exact Operation.independent_map (fun _ _ => by simp [Operation.requires, Operation.enters]) _

/-- What the requests of a fixture bind together is the same before its systems and after them. -/
theorem groupsOf_entries {fixture : Fixture} {known : Set Fact}
    (all : Operation.AllWhole known fixture.entries) :
    Operation.groupsOf known fixture.entries =
      (BindingRequest.group · (Operation.known known fixture.entries)) ''
        {r | r ∈ fixture.bindings} := by
  rw [entries, List.append_assoc] at all ⊢
  rw [Operation.allWhole_append] at all
  obtain ⟨before, all⟩ := all
  have none (operations : List Operation) (known : Set Fact)
      (other : ∀ operation ∈ operations, ∀ request, operation ≠ .createBinding request) :
      Operation.groupsOf known operations = ∅ := by
    refine Operation.groupsOf_of_none (fun operation mem _ => ?_) known
    cases operation with
    | createBinding request => exact absurd rfl (other _ mem request)
    | _ => rfl
  obtain ⟨bound, unchanged⟩ :=
    Operation.groupsOf_bindings fixture.bindings (Operation.known known _)
  rw [Operation.allWhole_append, unchanged] at all
  rw [Operation.groupsOf_append before, Operation.groupsOf_append all.1, bound, unchanged,
    Operation.known_append before, Operation.known_append all.1, unchanged, all.2.known_eq,
    none _ _ ?_, none _ _ ?_, Set.empty_union, Set.union_empty]
  · refine Set.image_congr fun request _ => (BindingRequest.group_union request ?_).symm
    rintro e ⟨operation, mem, stated⟩
    obtain ⟨entry, _, rfl⟩ := List.mem_map.mp mem
    exact List.mem_singleton.mp (Operation.enters_all _ e stated)
  · rintro operation mem request rfl
    simp at mem
  · rintro operation mem request rfl
    simp at mem

end Fixture

end BlastRadius
