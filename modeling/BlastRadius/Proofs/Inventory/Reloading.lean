import BlastRadius.Proofs.Inventory.Counterparts
import BlastRadius.Proofs.Inventory.Enrolment
import BlastRadius.Proofs.Inventory.Sections

/-!
What a fixture leads to when it is loaded without an error, up to the identifiers of new nodes.
Loaded again, it finds everything and changes nothing.
-/

namespace BlastRadius

open Contents

/-- What a fixture leads to: everything that its entries assert is accepted, and then its
vulnerabilities are registered. -/
def Contents.Loads (c : Contents) (fixture : Fixture) (d : Contents) : Prop :=
  Operation.AllWhole c.shown fixture.entries ∧ ∃ m,
    c.Gains (Operation.known c.shown fixture.entries)
      (Operation.groupsOf c.shown fixture.entries) m ∧
    m.RegistersAll fixture.vulnerabilities d

namespace Contents

variable {c d : Contents} {fixture : Fixture}

theorem Loads.again (loads : c.Loads fixture d) (regular : d.Regular) : d.Loads fixture d := by
  obtain ⟨all, m, gains, registers⟩ := loads
  have silent := registers.silent gains.regular.toPlaced
  have known : d.shown = Operation.known c.shown fixture.entries := by
    rw [silent.shown, gains.shown]
    exact Set.union_eq_right.mpr (Operation.subset_known _ _)
  obtain ⟨again, unchanged⟩ := all.again known.ge
  have bound : Operation.groupsOf d.shown fixture.entries ⊆ d.grouped := by
    rw [Fixture.groupsOf_entries again, unchanged, known, ← Fixture.groupsOf_entries all]
    refine Set.Subset.trans ?_ (silent.extended.grouped_subset gains.regular.toPlaced
      silent.bindings)
    exact gains.grouped ▸ Set.subset_union_right
  refine ⟨again, d, ⟨.refl regular, ?_, ?_⟩, registers.again gains.regular.toPlaced⟩
  · rw [unchanged, Set.union_self]
  · exact (Set.union_eq_left.mpr bound).symm

end Contents

namespace Ensures

variable {c d : Contents} {fixture : Fixture}

theorem loadFixture (regular : c.Regular) (fixture : Fixture) :
    Ensures .trying (Inventory.loadFixture fixture) c
      fun x m => ∀ summary, x = .ok summary → c.Loads fixture m ∧ summary = m.measure := by
  rw [Inventory.loadFixture_eq]
  refine (Operation.entered regular (fun _ mem => fixture.entries_assert mem)
    fun _ _ _ _ _ => trivial).bind ?_ fun _ _ _ => nofun
  rintro _ m ⟨all, gains⟩
  refine (registerEach gains.regular.toPlaced fixture.vulnerabilities).bind ?_ fun _ _ _ => nofun
  rintro _ d registers
  refine measured.mono ?_
  rintro _ _ ⟨rfl, rfl⟩ _ ⟨⟩
  exact ⟨⟨all, m, gains, registers rfl⟩, rfl⟩

/-- Loading a fixture leads to what it may lead to, up to the identifiers of new nodes. -/
theorem loadFixture_renamed (regular : c.Regular) (loads : c.Loads fixture d) :
    Ensures (.upTo d.live.ncard) (Inventory.loadFixture fixture) c
      fun x m => x = .ok d.measure ∧ ∃ f : Renaming, (∀ id ∈ c.live, f id = id) ∧
        m = d.rename f := by
  obtain ⟨all, m, gains, registers⟩ := loads
  have placed := gains.regular.toPlaced
  have old := Operation.subset_known c.shown fixture.entries
  have fewer := Set.ncard_le_ncard (registers.silent placed).extended.live
  -- Nodes are asked for only while something is missing that `m` shows with a node of its own.
  have covers : (Supply.upTo d.live.ncard).Covers c (Operation.known c.shown fixture.entries)
      (c.grouped ∪ Operation.groupsOf c.shown fixture.entries) := by
    intro m' outgrowth shown grouped wanted
    rw [← Set.union_eq_right.mpr old, ← gains.shown] at shown wanted
    rw [← gains.grouped] at grouped wanted
    refine Nat.lt_of_lt_of_le ?_ fewer
    rcases wanted with ⟨fact, known, wants⟩ | ⟨group, known, missing⟩
    · exact outgrowth.ncard_lt_of_wants gains.outgrowth shown grouped wants known
    · exact outgrowth.ncard_lt_of_group gains.outgrowth shown grouped missing known
  rw [Inventory.loadFixture_eq]
  refine (Operation.entered regular (fun _ mem => fixture.entries_assert mem) covers).bind ?_ ?_
  · rintro _ m' ⟨_, gains'⟩
    obtain ⟨f, fixes, rfl⟩ := gains.outgrowth.exists_renaming gains'.outgrowth
      (gains.shown.trans gains'.shown.symm) (gains.grouped.trans gains'.grouped.symm)
    refine (registerEach_renamed placed registers f).bind ?_ ?_
    · rintro _ _ ⟨_, f', agrees, rfl⟩
      refine measured.mono ?_
      rintro _ _ ⟨rfl, rfl⟩
      refine ⟨congrArg Except.ok (rename_measure f'), f', fun id live => ?_, rfl⟩
      exact (agrees id (gains.outgrowth.live_subset live)).trans (fixes id live)
    · rintro _ _ ⟨⟨⟩, _⟩
  · rintro error m' (⟨_, refused, _⟩ | ⟨_, ⟨_, never⟩, _⟩)
    · exact absurd all refused
    · exact never.elim

end Ensures

namespace Medium

variable {medium : Medium} {operations : List Operation} {fixture : Fixture}
    {summary : FixtureSummary}

theorem loads_of_ok (fits : medium.Fits (operations ++ [.loadFixture fixture]))
    (loaded : ((Operation.loadFixture fixture).on medium.store (medium.reached operations)).1 =
      .ok (.summary summary)) :
    (medium.contents operations).Loads fixture
        (medium.contents (operations ++ [.loadFixture fixture])) ∧
      summary = (medium.contents (operations ++ [.loadFixture fixture])).measure := by
  have before := fits.before (List.prefix_append operations [.loadFixture fixture])
  have ran := (performed fits (reached_sound before)).1
  rw [loaded] at ran
  obtain ⟨x, loading, same⟩ := runs_exceptT_map.mp ran
  cases x with
  | ok other =>
      cases same
      exact (Ensures.loadFixture (contents_regular before) fixture).runs loading summary rfl
  | error error => cases same

theorem adds_loadFixture (fixture : Fixture) :
    (Operation.loadFixture fixture).perform.run.Only Call.Adds :=
  Program.only_iff_each.mpr (allows_adding.perform (.loadFixture fixture) trivial nofun)

/-- While there are identifiers for as many nodes, loading a fixture leads to
what it may lead to. -/
theorem run_loads {s : medium.State} {d : Contents} (sound : medium.view.sound s)
    (regular : (medium.view.holds s).Regular) (loads : (medium.view.holds s).Loads fixture d)
    (enough : ∀ n, medium.size s ≤ n → n < d.live.ncard →
      medium.levelAt s n < NodeId.count) :
    (((Operation.loadFixture fixture).on medium.store s).1 = .ok (.summary d.measure) ∧
      ∃ f : Renaming, (∀ id ∈ (medium.view.holds s).live, f id = id) ∧
        medium.view.holds ((Operation.loadFixture fixture).on medium.store s).2 = d.rename f) ∧
    medium.Suffices (Operation.loadFixture fixture).perform.run s := by
  have ensures : Ensures (.upTo d.live.ncard) (Operation.loadFixture fixture).perform
      (medium.view.holds s) fun x m => x = .ok (.summary d.measure) ∧
        ∃ f : Renaming, (∀ id ∈ (medium.view.holds s).live, f id = id) ∧
          m = d.rename f := by
    refine Ensures.map ((Ensures.loadFixture_renamed regular loads).mono ?_)
    rintro _ m ⟨rfl, renamed⟩
    exact ⟨rfl, renamed⟩
  exact run_ensured (adds_loadFixture fixture) sound ensures enough

theorem Fits.then (fits : medium.Fits operations) {operation : Operation}
    (enough : medium.Suffices operation.perform.run (medium.reached operations)) :
    medium.Fits (operations ++ [operation]) := by
  intro before other among
  rcases List.prefix_concat_iff.mp among with same | among
  · obtain ⟨rfl, one⟩ := List.append_inj' same rfl
    obtain rfl := List.singleton_inj.mp one
    exact enough
  · exact fits before other among

theorem fits_nil (medium : Medium) : medium.Fits [] :=
  fun _ _ among => absurd (List.prefix_nil.mp among) (List.append_ne_nil_of_right_ne_nil _ nofun)

theorem Fits.then_of_created (fits : Medium.memory.Fits operations) {operation : Operation}
    (few : Medium.memory.view.level (Medium.memory.reached operations) +
      operation.perform.run.created Memory.store (Medium.memory.reached operations) <
        NodeId.count) :
    Medium.memory.Fits (operations ++ [operation]) :=
  fits.then (Memory.faithful.room_of_created _ (reached_sound fits) few).1

theorem answer_eq_ok {ε α : Type} {answer : Except ε α} {value : α}
    (same : answer.toOption = some value) : answer = .ok value := by
  cases answer with
  | ok _ => exact congrArg Except.ok (Option.some.inj same)
  | error _ => cases same

/-- A fixture that was loaded without an error is loaded again at once with the same summary, for
which no node is asked for, and everything stays as it is. -/
theorem fixtures_load_again (medium : Medium) {operations : List Operation} {fixture : Fixture}
    {summary : FixtureSummary} (fits : medium.Fits (operations ++ [.loadFixture fixture]))
    (loaded : ((Operation.loadFixture fixture).on medium.store (medium.reached operations)).1 =
      .ok (.summary summary)) :
    let once := operations ++ [.loadFixture fixture]
    let twice := once ++ [.loadFixture fixture]
    medium.Fits twice ∧
      ((Operation.loadFixture fixture).on medium.store (medium.reached once)).1 =
        .ok (.summary summary) ∧
      medium.contents twice = medium.contents once := by
  intro once twice
  obtain ⟨loads, rfl⟩ := loads_of_ok fits loaded
  have regular := contents_regular fits
  obtain ⟨⟨answer, f, fixes, same⟩, enough⟩ := run_loads (reached_sound fits) regular
    (loads.again regular) fun n above below => absurd below (not_lt.mpr above)
  refine ⟨fits.then enough, answer, ?_⟩
  rw [contents, reached_append, same]
  exact regular.toPlaced.rename_fixed fixes

/-- Entries that occur twice, callees that were linked before, a binding to a component that is not
there, and two vulnerabilities of which one has no identity. -/
theorem fixtures_load_again_overlapping :
    let operations : List Operation := [.upsertSymbol "main"]
    let fixture : Fixture :=
      { libraries := [⟨⟨"core", "1.0"⟩, ["parse", "print"]⟩]
        calls := [⟨"parse", ["print"]⟩, ⟨"parse", ["print", "parse"]⟩]
        components := [⟨"web", "2.0"⟩, ⟨"web", "2.0"⟩]
        network := [⟨⟨⟨"web", "2.0"⟩, "get"⟩, [⟨⟨"web", "2.0"⟩, "put"⟩]⟩]
        bindings := [⟨some ⟨"core", "1.0"⟩, some ⟨"shop", "3.0"⟩, none⟩]
        vulnerabilities := [⟨none, "parse"⟩, ⟨some "flaw", "print"⟩] }
    let once := operations ++ [.loadFixture fixture]
    Medium.memory.Fits once ∧
      ((Operation.loadFixture fixture).on Memory.store (Medium.memory.reached operations)).1 =
        .ok (.summary ⟨11, 11⟩) ∧
      ((Operation.loadFixture fixture).on Memory.store (Medium.memory.reached once)).1 =
        .ok (.summary ⟨11, 11⟩) ∧
      Medium.memory.contents (once ++ [.loadFixture fixture]) = Medium.memory.contents once := by
  intro operations fixture once
  have fits : Medium.memory.Fits once :=
    ((fits_nil .memory).then_of_created (by decide +kernel)).then_of_created (by decide +kernel)
  have loaded : ((Operation.loadFixture fixture).on Memory.store
      (Medium.memory.reached operations)).1 = .ok (.summary ⟨11, 11⟩) :=
    answer_eq_ok (by decide +kernel)
  obtain ⟨-, again, same⟩ := fixtures_load_again .memory fits loaded
  exact ⟨fits, loaded, again, same⟩

end Medium

end BlastRadius
