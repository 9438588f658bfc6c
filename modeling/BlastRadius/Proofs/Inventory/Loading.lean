import BlastRadius.Proofs.Inventory.Settlement

/-!
The operations that load a fixture, one after the other. The first that is not accepted as a whole
is the last one; until then each finds what those before it recorded.
-/

namespace BlastRadius

open Contents

namespace Inventory

variable {α β τ ρ : Type}

theorem forEach_append (act : τ → ImpactProgram α) (first rest : List τ) :
    forEach act (first ++ rest) = forEach act first >>= fun _ => forEach act rest := by
  induction first with
  | nil => exact (pure_bind () fun _ => forEach act rest).symm
  | cons t others ih => simp only [List.cons_append, forEach, ih, bind_assoc]

theorem forEach_map {act : τ → ImpactProgram α} {of : ρ → τ}
    {part : ρ → ImpactProgram β}
    {answer : β → α} (same : ∀ r, act (of r) = answer <$> part r) (l : List ρ) :
    forEach act (l.map of) = forEach part l := by
  induction l with
  | nil => rfl
  | cons r rest ih => simp only [List.map_cons, forEach, same, bind_map_left, ih]

theorem loadSections_eq (fixture : Fixture) :
    loadSections fixture = forEach Operation.perform fixture.entries >>= fun _ =>
      forEach (fun entry => createVulnerability entry.identity entry.symbol)
        fixture.vulnerabilities := by
  simp only [Fixture.entries, forEach_append, bind_assoc]
  have one {α τ : Type} {of : τ → Operation} {part : τ → ImpactProgram α}
      (answer : α → Answer)
      (same : ∀ r, (of r).perform = answer <$> part r) (l : List τ) :
      forEach Operation.perform (l.map of) = forEach part l :=
    forEach_map same l
  rw [one .node fun _ => rfl, one .libraryUpsert fun _ => rfl,
    one .link fun _ => rfl, one .node fun _ => rfl,
    one .node fun _ => rfl, one .added fun _ => rfl,
    one .node fun _ => rfl, one .added fun _ => rfl,
    one .link fun _ => rfl, one .binding fun _ => rfl, one .node fun _ => rfl]
  rfl

/-- The size of the whole graph. -/
def measured : ImpactProgram FixtureSummary := do
  let graph ← ImpactProgram.call .loadGraph
  return ⟨graph.nodes.length, graph.edges.length⟩

theorem loadFixture_eq (fixture : Fixture) :
    loadFixture fixture = forEach Operation.perform fixture.entries >>= fun _ =>
      forEach (fun entry => createVulnerability entry.identity entry.symbol)
        fixture.vulnerabilities >>= fun _ => measured := by
  rw [loadFixture, loadSections_eq, bind_assoc]
  rfl

end Inventory

theorem Fixture.entries_assert {fixture : Fixture} {operation : Operation}
    (mem : operation ∈ fixture.entries) : operation.head ≠ none := by
  simp only [entries, List.mem_append, List.mem_map, or_assoc] at mem
  rcases mem with ⟨_, _, rfl⟩ | ⟨_, _, rfl⟩ | ⟨_, _, rfl⟩ | ⟨_, _, rfl⟩ |
    ⟨_, _, rfl⟩ | ⟨_, _, rfl⟩ |
    ⟨_, _, rfl⟩ | ⟨_, _, rfl⟩ | ⟨_, _, rfl⟩ | ⟨_, _, rfl⟩ |
      ⟨_, _, rfl⟩ <;> exact Option.some_ne_none _

namespace Operation

/-- Whether each of some operations is accepted as a whole after those before it. -/
def AllWhole (known : Set Fact) : List Operation → Prop
  | [] => True
  | operation :: rest => operation.Whole known ∧
      AllWhole (known ∪ operation.accepted known) rest

/-- What is bound together by operations that are accepted as a whole. -/
def groupsOf (known : Set Fact) : List Operation → Set (Set Entity)
  | [] => ∅
  | operation :: rest => operation.groups known ∪
      groupsOf (known ∪ operation.accepted known) rest

variable {operation : Operation} {known : Set Fact} {operations : List Operation}

theorem known_cons_of_whole (whole : operation.Whole known) (rest : List Operation) :
    Operation.known known (operation :: rest) =
      Operation.known (known ∪ operation.accepted known) rest :=
  if_pos whole

theorem known_cons_of_not_whole (refused : ¬ operation.Whole known) (rest : List Operation) :
    Operation.known known (operation :: rest) = known ∪ operation.accepted known :=
  if_neg refused

theorem subset_known (known : Set Fact) (operations : List Operation) :
    known ⊆ Operation.known known operations := by
  induction operations generalizing known with
  | nil => exact subset_rfl
  | cons operation rest ih =>
      rw [Operation.known]
      split
      · exact Set.subset_union_left.trans (ih _)
      · exact Set.subset_union_left

theorem accepted_subset_known (operation : Operation) (known : Set Fact) (rest : List Operation) :
    operation.accepted known ⊆ Operation.known known (operation :: rest) := by
  rw [Operation.known]
  split
  · exact Set.subset_union_right.trans (subset_known _ rest)
  · exact Set.subset_union_right

end Operation

/-- Nodes may be asked for as long as one is wanted for some facts or bindings that contents get. -/
def Supply.Covers (supply : Supply) (c : Contents) (facts : Set Fact) (groups : Set (Set Entity)) :
    Prop :=
  ∀ m, Outgrowth c m → m.shown ⊆ facts → m.grouped ⊆ groups →
    (∃ fact ∈ facts, m.Wants fact) ∨ (∃ group ∈ groups, group ∉ m.grouped) →
      supply.spare m

namespace Supply.Covers

variable {supply : Supply} {c m : Contents} {facts : Set Fact} {groups : Set (Set Entity)}

theorem grown (covers : supply.Covers c facts groups) (outgrowth : Outgrowth c m) :
    supply.Covers m facts groups :=
  fun m' grown => covers m' (outgrowth.trans grown)

theorem provides (covers : supply.Covers c facts groups) {accepted : Set Fact}
    (known : c.shown ⊆ facts) (bound : c.grouped ⊆ groups) (some : accepted ⊆ facts) :
    supply.Provides c accepted := by
  intro m gained gains part ⟨fact, mem, wants⟩
  refine covers m gains.outgrowth ?_ ?_ (Or.inl ⟨fact, some mem, wants⟩)
  · exact gains.shown ▸ Set.union_subset known (part.trans some)
  · exact gains.grouped ▸ Set.union_subset bound (Set.empty_subset _)

theorem spare (covers : supply.Covers c facts groups) (regular : c.Regular)
    (known : c.shown ⊆ facts)
    (bound : c.grouped ⊆ groups) {group : Set Entity} (mem : group ∈ groups)
    (missing : group ∉ c.grouped) : supply.spare c :=
  covers c (.refl regular) known bound (Or.inr ⟨group, mem, missing⟩)

end Supply.Covers

namespace Operation

variable {supply : Supply} {c : Contents} {operations : List Operation}

/-- What is wanted of operations that are performed until one of them fails. -/
def Entered (supply : Supply) (c : Contents) (operations : List Operation) :
    Except ImpactError Unit → Contents → Prop
  | .ok _, m => AllWhole c.shown operations ∧
      c.Gains (known c.shown operations) (groupsOf c.shown operations) m
  | .error error, m =>
      error.exhausted = false ∧ ¬ AllWhole c.shown operations ∧
        (∃ groups, c.Gains (known c.shown operations) groups m) ∨
      error.exhausted = true ∧ supply.Lacking ∧
        ∃ gained ⊆ known c.shown operations, ∃ groups, c.Gains gained groups m

theorem entered (regular : c.Regular)
    (assert : ∀ operation ∈ operations, operation.head ≠ none)
    (covers : supply.Covers c (known c.shown operations)
      (c.grouped ∪ groupsOf c.shown operations)) :
    Ensures supply (Inventory.forEach perform operations) c (Entered supply c operations) := by
  induction operations generalizing c with
  | nil => exact Ensures.pure ⟨trivial, regular.gains_known subset_rfl⟩
  | cons operation rest ih =>
      have old := subset_known c.shown (operation :: rest)
      have more := accepted_subset_known operation c.shown rest
      -- What the rest accepts is decided by what is shown after the first operation, so that the
      -- induction is over the contents too.
      have first := settles regular (assert operation List.mem_cons_self)
        (covers.provides old Set.subset_union_left more) fun group mem missing =>
          covers.spare regular old Set.subset_union_left (Or.inr (Or.inl mem)) missing
      refine first.bind ?_ ?_
      · rintro _ m ⟨whole, gains⟩
        have facts : known c.shown (operation :: rest) = known m.shown rest := by
          rw [known_cons_of_whole whole, gains.shown]
        have groups : c.grouped ∪ groupsOf c.shown (operation :: rest) =
            m.grouped ∪ groupsOf m.shown rest := by
          rw [groupsOf, gains.grouped, gains.shown, Set.union_assoc]
        have all : AllWhole c.shown (operation :: rest) ↔ AllWhole m.shown rest := by
          rw [AllWhole, and_iff_right whole, gains.shown]
        have both {gained : Set Fact} {groups' : Set (Set Entity)} {m' : Contents}
            (some : gained ⊆ known c.shown (operation :: rest))
            (gains' : m.Gains gained groups' m') :
            ∃ gained' ⊆ known c.shown (operation :: rest), gained ⊆ gained' ∧
              c.Gains gained' (operation.groups c.shown ∪ groups') m' :=
          ⟨_, Set.union_subset more some, Set.subset_union_right, gains.trans gains'⟩
        rw [facts, groups] at covers
        have later := ih gains.regular (fun other mem => assert other (List.mem_cons_of_mem _ mem))
          (covers.grown gains.outgrowth)
        refine later.mono fun x m' entered => ?_
        cases x with
        | ok _ =>
            obtain ⟨accepted, gains'⟩ := entered
            obtain ⟨gained, some, all', gains'⟩ := both facts.symm.subset gains'
            refine ⟨all.mpr accepted, ?_⟩
            rw [groupsOf, ← gains.shown]
            exact gains'.congr (Set.Subset.antisymm some (facts ▸ all'))
        | error error =>
            rcases entered with ⟨plain, refused, groups', gains'⟩ |
              ⟨full, lacking, gained, some, groups', gains'⟩
            · obtain ⟨gained, some, all', gains'⟩ := both facts.symm.subset gains'
              refine Or.inl ⟨plain, refused ∘ all.mp, operation.groups c.shown ∪
                groups', ?_⟩
              exact gains'.congr (Set.Subset.antisymm some (facts ▸ all'))
            · obtain ⟨gained', some', _, gains'⟩ := both (facts ▸ some) gains'
              exact Or.inr ⟨full, lacking, gained', some', _, gains'⟩
      · rintro error m (⟨plain, refused, gains⟩ | ⟨full, lacking, gained, some, gains, _⟩)
        · refine Or.inl ⟨plain, fun all => refused all.1, ∅, ?_⟩
          rw [known_cons_of_not_whole refused]
          exact gains.of_known subset_rfl Set.subset_union_right
        · exact Or.inr ⟨full, lacking, gained, some.trans more, ∅, gains⟩

end Operation

end BlastRadius
