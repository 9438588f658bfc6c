import BlastRadius.Proofs.Inventory.Exposure

/-!
Endpoints and their components while clients share a store. The key of an endpoint names a node that
may be removed and whose identifier may be given to another node. No endpoint is left over by this:
removals take the endpoints of components along, and an endpoint that would be recorded for a node
that is no component any more is refused.
-/

namespace BlastRadius

namespace Contents

variable {c c' : Contents} {q : Call} {id owner : NodeId} {name : String}

/-- Contents in which endpoints are exposed by their components only, and each
is, and has a name. -/
structure Placed (c : Contents) : Prop extends Owned c where
  exposed : ∀ {id name owner}, c.node? id = some (.endpoint name owner) →
    name.isEmpty = false ∧ ⟨id, .exposes, owner⟩ ∈ c.edges

/-- Endpoints stay placed, if they were. -/
def PlacesStay (c c' : Contents) : Prop := c.Placed → c'.Placed

namespace Placed

theorem empty : empty.Placed := ⟨.empty, nofun⟩

theorem targets (placed : c.Placed) (found : c.node? id = some (.endpoint name owner)) :
    c.targets id .exposes = {owner} := by
  refine Set.eq_singleton_iff_unique_mem.mpr ⟨(placed.exposed found).2, fun t edge => ?_⟩
  obtain ⟨other, own⟩ := placed.owner id t edge
  have same := found.symm.trans own
  simp only [Option.some.injEq, Node.endpoint.injEq] at same
  exact same.2.symm

theorem component (placed : c.Placed) (found : c.node? id = some (.endpoint name owner)) :
    owner ∈ c.ofKind .component :=
  placed.valid.target_kind (by decide) (placed.exposed found).2

theorem change (placed : c.Placed) (change : c.Change q c')
    (frame : q.touches .endpoint .exposes = false) : c'.Placed := by
  obtain ⟨nodes, edges⟩ := change.untouched frame
  refine ⟨placed.toOwned.change change frame, fun {id name owner} found => ?_⟩
  obtain ⟨named, edge⟩ := placed.exposed ((nodes id _ rfl).mp found)
  exact ⟨named, (edges id owner).mpr edge⟩

/-- Whatever is removed, the endpoints go when the components do. -/
theorem withoutAll (placed : c.Placed) {kinds : List NodeKind}
    (together : .component ∈ kinds → .endpoint ∈ kinds) : (c.withoutAll kinds).Placed where
  valid := placed.valid.withoutAll kinds
  owner s t edge := by
    obtain ⟨mem, spared⟩ := mem_withoutAll_edges.mp edge
    obtain ⟨name, found⟩ := placed.owner s t mem
    exact ⟨name, withoutAll_node?.mpr ⟨found, fun gone =>
      (spared _ gone).1 ⟨_, found, rfl⟩⟩⟩
  exposed {id name owner} left := by
    obtain ⟨found, spared⟩ := withoutAll_node?.mp left
    obtain ⟨named, edge⟩ := placed.exposed found
    refine ⟨named, mem_withoutAll_edges.mpr ⟨edge, fun kind mem =>
      ⟨fun own => ?_, fun own => ?_⟩⟩⟩
    · exact spared ((mem_ofKind found).mp own ▸ mem)
    · exact spared (together (ofKind_eq own (placed.component found) ▸ mem))

end Placed

end Contents

open Contents

theorem exposing_placesStay {name : String} (owner : NodeId) (named : name.isEmpty = false) :
    KeepsBlock PlacesStay (Inventory.exposing name owner) := by
  intro c x c' ran placed
  have owned' := kept_owners.exposing owner named c x c' ran placed.toOwned
  rcases exposing_cases placed.valid ran with
    ⟨id, m, rfl, old | ⟨fresh, free, new⟩, found, _, rfl⟩ | ⟨error, rfl⟩
  · subst old
    refine ⟨owned', fun {k other o} known => ?_⟩
    change m.node? k = _ at known
    obtain ⟨given, edge⟩ := placed.exposed known
    exact ⟨given, Or.inr edge⟩
  · subst new
    refine ⟨owned', fun {k other o} known => ?_⟩
    change (c.insert id (.endpoint name owner)).node? k = _ at known
    by_cases self : k = id
    · subst self
      rw [insert_node?_self] at known
      cases known
      exact ⟨named, Or.inl rfl⟩
    · rw [insert_node?_of_ne _ self] at known
      obtain ⟨given, edge⟩ := placed.exposed known
      exact ⟨given, Or.inr edge⟩
  · exact placed

theorem kept_places : Kept PlacesStay := by
  have refl (c : Contents) : PlacesStay c c := id
  have trans {a b c : Contents} (first : PlacesStay a b) (second : PlacesStay b c) :
      PlacesStay a c := second ∘ first
  have call {q : Call} (frame : q.touches .endpoint .exposes = false) :
      Keeps PlacesStay (StoreProgram.call q) :=
    keeps_call fun change placed => placed.change change frame
  refine ⟨refl, trans, fun plain change placed => ?_, exposing_placesStay, fun request => ?_,
    fun identity symbol => ?_⟩
  · exact placed.change change (Call.untouched_of_plain plain).1
  · exact keeps_recording refl trans (call rfl) fun _ _ => call rfl
  · exact keeps_registering refl trans (fun _ => call rfl) (call rfl) fun _ _ => call rfl

theorem Operation.removed_together (operation : Operation)
    (components : .component ∈ operation.removed) : .endpoint ∈ operation.removed := by
  cases operation with
  | reset => decide
  | resetKinds kinds => exact Query.endpoint_mem_withEndpoints components
  | resetDomain domain => exact Query.endpoint_mem_withEndpoints components
  | _ => exact absurd components List.not_mem_nil

theorem keeps_places (operation : Operation) : Keeps PlacesStay operation.perform := by
  refine kept_places.allows.perform operation ?_ fun _ c r c' tried placed => ?_
  · exact keepsBlock_removing fun c placed => placed.withoutAll operation.removed_together
  · cases tried.change with
    | none => exact placed
    | reset => exact .empty

namespace Medium

/-- While clients perform operations, in any order of their steps, every endpoint has a name and is
exposed by the node in its key, which is a component, and by no other. -/
theorem endpoints_placed (medium : Medium) {ι : Type} [DecidableEq ι]
    {operations : ι → List Operation} {turns : List ι}
    (serves : medium.Serves (medium.performing operations) turns) {id owner : NodeId}
    {name : String}
    (found : (medium.heldAmid operations turns).node? id = some (.endpoint name owner)) :
    name.isEmpty = false ∧ owner ∈ (medium.heldAmid operations turns).ofKind .component ∧
      (medium.heldAmid operations turns).targets id .exposes = {owner} := by
  have placed : (medium.heldAmid operations turns).Placed :=
    heldAmid_invariant .empty (fun i operation _ => keeps_places operation) serves
  exact ⟨(placed.exposed found).1, placed.component found, placed.targets found⟩

/-- The component is removed before its endpoint is recorded, and its identifier is given to another
component, whose endpoint it becomes. -/
theorem endpoints_placed_after_removal :
    let operations : Fin 3 → List Operation := fun
      | 0 => [.upsertComponent ⟨"web", "1.0"⟩,
          .upsertEndpoint ⟨⟨"web", "1.0"⟩, "login"⟩]
      | 1 => [.resetKinds [.component], .upsertComponent ⟨"store", "2.0"⟩]
      | 2 => [.upsertEndpoint ⟨⟨"store", "2.0"⟩, "audit"⟩]
    let turns : List (Fin 3) := [0, 0, 0, 1, 1, 1, 2, 0, 2]
    let held := Medium.database.heldAmid operations turns
    Medium.database.Serves (Medium.database.performing operations) turns ∧
    held.node? ⟨1⟩ = some (.component ⟨"store", "2.0"⟩) ∧
    held.node? ⟨2⟩ = some (.endpoint "login" ⟨1⟩) ∧
    "login".isEmpty = false ∧ ⟨1⟩ ∈ held.ofKind .component ∧
      held.targets ⟨2⟩ .exposes = {⟨1⟩} := by
  intro operations turns held
  have serves : Medium.database.Serves (Medium.database.performing operations) turns :=
    fun _ _ _ => trivial
  have owner : held.node? ⟨1⟩ = some (.component ⟨"store", "2.0"⟩) := by decide +kernel
  have found : held.node? ⟨2⟩ = some (.endpoint "login" ⟨1⟩) := by decide +kernel
  exact ⟨serves, owner, found, endpoints_placed .database serves found⟩

end Medium

end BlastRadius
