import BlastRadius.Proofs.Inventory.Reloading

/-!
Fixtures that differ in the order of what is within their sections. They lead to the same graph up
to the identifiers of new nodes. The vulnerabilities stay in their order, on which it depends which
of two that match is registered.
-/

namespace BlastRadius

open Contents

/-- The entries of a list in another order, each replaced by a related one. -/
def Shuffles {α : Type} (R : α → α → Prop) (l l' : List α) : Prop :=
  ∃ m, l.Perm m ∧ List.Forall₂ R m l'

namespace Shuffles

variable {α : Type} {R S : α → α → Prop} {l l' : List α}

theorem of_perm (perm : l.Perm l') (refl : ∀ x, R x x) : Shuffles R l l' :=
  ⟨l', perm, List.forall₂_same.mpr fun x _ => refl x⟩

theorem symm (shuffles : Shuffles R l l') (flips : ∀ x y, R x y → S y x) : Shuffles S l' l := by
  obtain ⟨m, perm, related⟩ := shuffles
  have flipped : List.Forall₂ S l' m := (related.imp flips).flip
  have swapped : Relation.Comp (List.Forall₂ S) List.Perm l' l := ⟨m, flipped, perm.symm⟩
  rwa [List.forall₂_comp_perm_eq_perm_comp_forall₂] at swapped

theorem exists_right (shuffles : Shuffles R l l') {x : α} (mem : x ∈ l) :
    ∃ y ∈ l', R x y := by
  obtain ⟨m, perm, related⟩ := shuffles
  rw [perm.mem_iff] at mem
  clear perm
  induction related with
  | nil => cases mem
  | cons here _ ih =>
      rcases List.mem_cons.mp mem with rfl | later
      · exact ⟨_, List.mem_cons_self, here⟩
      · obtain ⟨y, mem', same⟩ := ih later
        exact ⟨y, List.mem_cons_of_mem _ mem', same⟩

theorem exists_left (shuffles : Shuffles R l l') {y : α} (mem : y ∈ l') : ∃ x ∈ l, R x y :=
  (shuffles.symm (S := flip R) fun _ _ related => related).exists_right mem

end Shuffles

/-- Fixtures of which one has the entries of the other in another order within each section but that
of the vulnerabilities, and the symbols, callees and components within entries in another order. -/
structure Fixture.Shuffled (fixture other : Fixture) : Prop where
  symbols : fixture.symbols.Perm other.symbols
  libraries : Shuffles (fun a b => a.library = b.library ∧ a.symbols.Perm b.symbols)
    fixture.libraries other.libraries
  calls : Shuffles (fun a b => a.caller = b.caller ∧ a.callees.Perm b.callees)
    fixture.calls other.calls
  components : fixture.components.Perm other.components
  assets : fixture.assets.Perm other.assets
  hosting : fixture.hosting.Perm other.hosting
  endpoints : fixture.endpoints.Perm other.endpoints
  serves : fixture.serves.Perm other.serves
  network : Shuffles (fun a b => a.caller = b.caller ∧ a.callees.Perm b.callees)
    fixture.network other.network
  bindings : fixture.bindings.Perm other.bindings
  systems : Shuffles (fun a b => a.name = b.name ∧ a.components.Perm b.components)
    fixture.systems other.systems
  vulnerabilities : fixture.vulnerabilities = other.vulnerabilities

namespace Operation

variable {operation other : Operation}

theorem Restates.refl (operation : Operation) : operation.Restates operation :=
  ⟨fun _ => Iff.rfl, rfl⟩

theorem restates_of_perm (head : operation.head = other.head)
    (details : operation.details.Perm other.details) : operation.Restates other where
  whole known := by
    rw [Whole, Whole, head]
    exact forall₂_congr fun s _ => and_congr_right fun _ =>
      forall_congr' fun t => imp_congr_left details.mem_iff
  asserted := by
    ext fact
    refine exists_congr fun s => and_congr_left fun _ => ?_
    rw [assertions, assertions, List.mem_append, List.mem_append, head, details.mem_iff]

theorem restates_upsertLibrary (library : Artifact) {symbols others : List String}
    (perm : symbols.Perm others) :
    (upsertLibrary library symbols).Restates (upsertLibrary library others) where
  whole known := by
    simp [Whole, head, details, LibraryEntry.assertion, Assertion.Accepted, perm.mem_iff]
  asserted := by
    ext fact
    simp [asserted, assertions, head, details, LibraryEntry.assertion, Artifact.provisions,
      perm.mem_iff]

theorem rearranged_map {τ : Type} {R : τ → τ → Prop} {l l' : List τ} (of : τ → Operation)
    (shuffles : Shuffles R l l') (restates : ∀ t u, R t u → (of t).Restates (of u)) :
    Rearranged (l.map of) (l'.map of) := by
  refine ⟨List.forall_mem_map.mpr fun t mem => ?_, List.forall_mem_map.mpr fun u mem => ?_⟩
  · obtain ⟨u, mem', related⟩ := shuffles.exists_right mem
    exact ⟨of u, List.mem_map_of_mem mem', restates t u related⟩
  · obtain ⟨t, mem', related⟩ := shuffles.exists_left mem
    exact ⟨of t, List.mem_map_of_mem mem', restates t u related⟩

theorem rearranged_map_of_perm {τ : Type} {l l' : List τ} (of : τ → Operation)
    (perm : l.Perm l') :
    Rearranged (l.map of) (l'.map of) :=
  rearranged_map of (.of_perm perm (@Eq.refl τ)) fun t _ same => same ▸ .refl (of t)

end Operation

namespace Fixture.Shuffled

variable {fixture other : Fixture}

theorem sections (shuffled : fixture.Shuffled other) :
    List.Forall₂ Operation.Rearranged fixture.sections other.sections := by
  have symbols := Operation.rearranged_map_of_perm .upsertSymbol shuffled.symbols
  have libraries := Operation.rearranged_map
    (fun entry : LibraryEntry => .upsertLibrary entry.library entry.symbols) shuffled.libraries
    fun entry _ ⟨same, perm⟩ => same ▸ Operation.restates_upsertLibrary entry.library perm
  have calls := Operation.rearranged_map
    (fun entry : CallEntry => .addCalls entry.caller entry.callees) shuffled.calls
    fun entry _ ⟨same, perm⟩ => same ▸ Operation.restates_of_perm rfl (perm.map _)
  have components := Operation.rearranged_map_of_perm .upsertComponent shuffled.components
  have assets := Operation.rearranged_map_of_perm .upsertAsset shuffled.assets
  have hosting := Operation.rearranged_map_of_perm
    (fun entry : HostingEntry => .hostComponent entry.component entry.asset) shuffled.hosting
  have endpoints := Operation.rearranged_map_of_perm .upsertEndpoint shuffled.endpoints
  have serves := Operation.rearranged_map_of_perm
    (fun entry : ServesEntry => .addServes entry.endpoint entry.symbol) shuffled.serves
  have network := Operation.rearranged_map
    (fun entry : NetworkEntry => .addNetworkCalls entry.caller entry.callees) shuffled.network
    fun entry _ ⟨same, perm⟩ => same ▸ Operation.restates_of_perm rfl (perm.map _)
  have bindings := Operation.rearranged_map_of_perm .createBinding shuffled.bindings
  have systems := Operation.rearranged_map
    (fun entry : SystemEntry => .upsertSystem entry.name entry.components) shuffled.systems
    fun entry _ ⟨same, perm⟩ => same ▸ Operation.restates_of_perm rfl (perm.map _)
  exact .cons symbols <| .cons libraries <| .cons calls <| .cons components <| .cons assets <|
    .cons hosting <| .cons endpoints <| .cons serves <| .cons network <| .cons bindings <|
    .cons systems .nil

/-- Where everything that one fixture asserts is accepted, so is everything that the other asserts,
and the same facts are known then. -/
theorem allWhole (shuffled : fixture.Shuffled other) {known : Set Fact}
    (all : Operation.AllWhole known fixture.entries) : Operation.AllWhole known other.entries ∧
      Operation.known known other.entries = Operation.known known fixture.entries := by
  rw [entries_eq] at all
  rw [entries_eq, entries_eq]
  exact Operation.allWhole_rearranged fixture.sections_independent other.sections_independent
    shuffled.sections all

end Fixture.Shuffled

theorem Contents.Loads.shuffled {c d : Contents} {fixture other : Fixture}
    (loads : c.Loads fixture d)
    (shuffled : fixture.Shuffled other) : c.Loads other d := by
  obtain ⟨all, m, gains, registers⟩ := loads
  obtain ⟨all', same⟩ := shuffled.allWhole all
  have bound : Operation.groupsOf c.shown other.entries = Operation.groupsOf c.shown
      fixture.entries := by
    rw [Fixture.groupsOf_entries all', Fixture.groupsOf_entries all, same]
    exact congrArg _ (Set.ext fun request => shuffled.bindings.mem_iff.symm)
  refine ⟨all', m, ?_, shuffled.vulnerabilities ▸ registers⟩
  rwa [same, bound]

namespace Medium

/-- A fixture with its entries in another order is loaded without an error if the first one is, with
the same summary, and leads to the same graph but for the identifiers of the new nodes. -/
theorem fixtures_load_in_any_order (medium : Medium) {operations : List Operation}
    {fixture other : Fixture} {summary : FixtureSummary} (shuffled : fixture.Shuffled other)
    (fits : medium.Fits (operations ++ [.loadFixture fixture]))
    (loaded : ((Operation.loadFixture fixture).on medium.store (medium.reached operations)).1 =
      .ok (.summary summary)) :
    medium.Fits (operations ++ [.loadFixture other]) ∧
      ((Operation.loadFixture other).on medium.store (medium.reached operations)).1 =
        .ok (.summary summary) ∧
      ∃ f : Renaming, (∀ id ∈ (medium.contents operations).live, f id = id) ∧
        medium.contents (operations ++ [.loadFixture other]) =
          (medium.contents (operations ++ [.loadFixture fixture])).rename f := by
  obtain ⟨loads, rfl⟩ := loads_of_ok fits loaded
  have before := fits.before (List.prefix_append operations [.loadFixture fixture])
  have climbs := climbs_run (adds_loadFixture fixture) (reached_sound before)
      (fits operations _ (List.prefix_refl _))
  have enough (n : Nat) (above : medium.size (medium.reached operations) ≤ n)
      (below : n < (medium.contents (operations ++ [.loadFixture fixture])).live.ncard) :
      medium.levelAt (medium.reached operations) n < NodeId.count := by
    rw [contents, reached_append] at below
    exact climbs.room n above below
  obtain ⟨⟨answer, f, fixes, same⟩, suffice⟩ :=
    run_loads (reached_sound before) (contents_regular before) (loads.shuffled shuffled) enough
  refine ⟨before.then suffice, answer, f, fixes, ?_⟩
  rw [contents, reached_append]
  exact same

/-- Endpoints whose components are made in the other order, callees in the other order, and bindings
of which one is about what the other one is about. -/
theorem fixtures_load_in_any_order_exposed :
    let operations : List Operation := [.upsertSymbol "main"]
    let shop : Artifact := ⟨"shop", "1.0"⟩
    let web : Artifact := ⟨"web", "2.0"⟩
    let fixture : Fixture :=
      { symbols := ["idle", "main"]
        libraries := [⟨⟨"core", "1.0"⟩, ["parse", "print"]⟩]
        calls := [⟨"main", ["parse", "print"]⟩, ⟨"parse", ["print"]⟩]
        components := [shop, web]
        network := [⟨⟨shop, "buy"⟩, [⟨web, "get"⟩, ⟨web, "put"⟩]⟩]
        bindings :=
          [⟨some ⟨"core", "1.0"⟩, some web, none⟩,
          ⟨some ⟨"core", "1.0"⟩, some web, some web⟩]
        vulnerabilities := [⟨none, "parse"⟩, ⟨some "flaw", "print"⟩] }
    let other : Fixture :=
      { symbols := ["main", "idle"]
        libraries := [⟨⟨"core", "1.0"⟩, ["print", "parse"]⟩]
        calls := [⟨"parse", ["print"]⟩, ⟨"main", ["print", "parse"]⟩]
        components := [web, shop]
        network := [⟨⟨shop, "buy"⟩, [⟨web, "put"⟩, ⟨web, "get"⟩]⟩]
        bindings :=
          [⟨some ⟨"core", "1.0"⟩, some web, some web⟩,
          ⟨some ⟨"core", "1.0"⟩, some web, none⟩]
        vulnerabilities := [⟨none, "parse"⟩, ⟨some "flaw", "print"⟩] }
    fixture.Shuffled other ∧ Medium.memory.Fits (operations ++ [.loadFixture fixture]) ∧
      ((Operation.loadFixture fixture).on Memory.store (Medium.memory.reached operations)).1 =
        .ok (.summary ⟨15, 16⟩) ∧
      ((Operation.loadFixture other).on Memory.store (Medium.memory.reached operations)).1 =
        .ok (.summary ⟨15, 16⟩) ∧
      ∃ f : Renaming, (∀ id ∈ (Medium.memory.contents operations).live, f id = id) ∧
        Medium.memory.contents (operations ++ [.loadFixture other]) =
          (Medium.memory.contents (operations ++ [.loadFixture fixture])).rename f := by
  intro operations shop web fixture other
  have shuffled : fixture.Shuffled other :=
    { symbols := .swap _ _ _
      libraries := ⟨_, .refl _, .cons ⟨rfl, .swap _ _ _⟩ .nil⟩
      calls := ⟨_, .swap _ _ _, .cons ⟨rfl, .refl _⟩ (.cons ⟨rfl, .swap _ _ _⟩ .nil)⟩
      components := .swap _ _ _
      assets := .refl _
      hosting := .refl _
      endpoints := .refl _
      serves := .refl _
      network := ⟨_, .refl _, .cons ⟨rfl, .swap _ _ _⟩ .nil⟩
      bindings := .swap _ _ _
      systems := ⟨_, .refl _, .nil⟩
      vulnerabilities := rfl }
  have fits : Medium.memory.Fits (operations ++ [.loadFixture fixture]) :=
    ((fits_nil .memory).then_of_created (by decide +kernel)).then_of_created (by decide +kernel)
  have loaded : ((Operation.loadFixture fixture).on Memory.store
      (Medium.memory.reached operations)).1 = .ok (.summary ⟨15, 16⟩) :=
    answer_eq_ok (by decide +kernel)
  obtain ⟨-, answer, same⟩ := fixtures_load_in_any_order .memory shuffled fits loaded
  exact ⟨shuffled, fits, loaded, answer, same⟩

end Medium

end BlastRadius
