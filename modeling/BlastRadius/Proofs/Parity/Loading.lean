import BlastRadius.Proofs.Parity.Bindings
import BlastRadius.Proofs.Parity.Vulnerabilities

/-!
The loading of graphs and of fixtures. The graphs that are loaded on either side have as many nodes
and as many edges.
-/

namespace BlastRadius

variable {c : Contents} {f : Renaming}

theorem Edge.rename_injective : Function.Injective (Edge.rename f) := by
  rintro ⟨s, r, t⟩ ⟨s', r', t'⟩ same
  simpa [Edge.rename] using same

theorem Contents.rename_edges : (c.rename f).edges = Edge.rename f '' c.edges := by
  ext ⟨s, r, t⟩
  obtain ⟨s, rfl⟩ := f.surjective s
  obtain ⟨t, rfl⟩ := f.surjective t
  rw [show (⟨f s, r, f t⟩ : Edge) = Edge.rename f ⟨s, r, t⟩ from rfl,
    Edge.rename_injective.mem_set_image, mem_rename_edges]
  simp [Edge.rename]

namespace DependencyGraph

variable {g : DependencyGraph}

theorem Valid.length_nodes (valid : g.Valid) : g.nodes.length = g.contents.live.ncard := by
  have all := Entries.length_filter valid.ascending fun _ => true
  rw [List.filter_true] at all
  rw [all]
  congr 1
  ext id
  rw [DependencyGraph.contents, Entries.mem_contents_live, Option.isSome_iff_exists]
  exact exists_congr fun _ => and_iff_left rfl

theorem Valid.length_edges (valid : g.Valid) : g.edges.length = g.contents.edges.ncard := by
  classical
  have all : g.contents.edges = ↑g.edges.toFinset := by
    ext e
    rw [Finset.mem_coe, List.mem_toFinset]
    rfl
  rw [all, Set.ncard_coe_finset, List.toFinset_card_of_nodup valid.ordered.nodup]

theorem Agree.length_nodes {g' : DependencyGraph} (agree : Agree f g g') :
    g'.nodes.length = g.nodes.length := by
  obtain ⟨valid, valid', same⟩ := agree
  rw [valid.length_nodes, valid'.length_nodes, same, Contents.rename_live, NodeId.ncard_image]

theorem Agree.length_edges {g' : DependencyGraph} (agree : Agree f g g') :
    g'.edges.length = g.edges.length := by
  obtain ⟨valid, valid', same⟩ := agree
  rw [valid.length_edges, valid'.length_edges, same, Contents.rename_edges,
    Set.ncard_image_of_injective _ Edge.rename_injective]

end DependencyGraph

namespace Alike

theorem loadGraph :
    Alike c f (StoreProgram.call .loadGraph) (StoreProgram.call .loadGraph) fun _ f₁ x y =>
      x.Agree f₁ y := by
  intro tidy x c₁ y c₂ ran ran'
  obtain ⟨⟨g, rfl, valid, rfl⟩, rfl⟩ := runs_storeCall.mp ran
  obtain ⟨⟨g', rfl, valid', same⟩, rfl⟩ := runs_storeCall.mp ran'
  exact ⟨f, rfl, tidy, .refl _ _, valid, valid', same⟩

theorem forget {ε α β : Type} {p : ExceptT ε Program α} {q : ExceptT ε Program β}
    {R : Contents → Renaming → α → β → Prop} (alike : Alike c f p q R) :
    Alike c f p q fun _ _ _ _ => True :=
  alike.mono fun _ _ _ _ _ _ => trivial

theorem loadSections (fixture : Fixture) :
    Alike c f (Inventory.loadSections fixture) (Inventory.loadSections fixture)
      fun _ _ _ _ => True := by
  refine (forEach fun symbol _ => (upsertSymbol symbol).forget).bind fun _ _ _ _ _ _ => ?_
  refine (forEach fun entry _ =>
    (upsertLibrary entry.library entry.symbols).forget).bind fun _ _ _ _ _ _ => ?_
  refine (forEach fun entry _ => (addCalls entry.caller entry.callees).forget).bind
    fun _ _ _ _ _ _ => ?_
  refine (forEach fun artifact _ => (upsertComponent artifact).forget).bind fun _ _ _ _ _ _ => ?_
  refine (forEach fun artifact _ => (upsertAsset artifact).forget).bind fun _ _ _ _ _ _ => ?_
  refine (forEach fun entry _ => (hostComponent entry.component entry.asset).forget).bind
    fun _ _ _ _ _ _ => ?_
  refine (forEach fun endpoint _ => (upsertEndpoint endpoint).forget).bind fun _ _ _ _ _ _ => ?_
  refine (forEach fun entry _ => (addServes entry.endpoint entry.symbol).forget).bind
    fun _ _ _ _ _ _ => ?_
  refine (forEach fun entry _ => (addNetworkCalls entry.caller entry.callees).forget).bind
    fun _ _ _ _ _ _ => ?_
  refine (forEach fun request _ => (createBinding request).forget).bind fun _ _ _ _ _ _ => ?_
  refine (forEach fun entry _ => (upsertSystem entry.name entry.components).forget).bind
    fun _ _ _ _ _ _ => ?_
  exact forEach fun entry _ => (createVulnerability entry.identity entry.symbol).forget

theorem loadFixture (fixture : Fixture) :
    Alike c f (Inventory.loadFixture fixture) (Inventory.loadFixture fixture)
      fun _ _ x y => y = x := by
  refine (loadSections fixture).bind fun c₁ f₁ _ _ _ _ => ?_
  refine loadGraph.ofStore.bind fun c₂ f₂ g g' _ agree => .pure ?_
  rw [agree.length_nodes, agree.length_edges]

end Alike

end BlastRadius
