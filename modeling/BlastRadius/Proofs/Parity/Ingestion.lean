import BlastRadius.Proofs.Parity.Steps

/-!
The operations that record artifacts, systems and endpoints do alike.
-/

namespace BlastRadius.Alike

open Inventory

variable {c : Contents} {f : Renaming}

theorem link {source target : NodeKind} {a a' b b' : NodeId} (relation : Relation)
    (left : Twin source c f a a') (right : Twin target c f b b')
    (permitted : relation.permits source target = true)
    (caller : relation = .caller → c.sources b .caller = ∅)
    (threat : relation = .threatens → c.targets a .threatens = ∅) :
    Alike c f (StoreProgram.call (.insertEdge ⟨a, relation, b⟩))
      (StoreProgram.call (.insertEdge ⟨a', relation, b'⟩)) fun c₁ f₁ x y =>
        y = x ∧ c₁ = c.link ⟨a, relation, b⟩ ∧ f₁ = f := by
  obtain ⟨sourceKind, rfl⟩ := left
  obtain ⟨targetKind, rfl⟩ := right
  exact insertEdge (e := ⟨a, relation, b⟩) sourceKind targetKind permitted caller threat

theorem mergedId (node : Node) {key : NodeKey} (keyed : node.key? = some key)
    (owner : ∀ name owner, node = .endpoint name owner → owner ∈ c.ofKind .component)
    (plain : node.kind ≠ .vulnerability) :
    Alike c f (Inventory.mergedId node) (Inventory.mergedId (node.rename f)) (Twin node.kind) :=
  (mergeNode node keyed owner plain).bind fun _ _ _ _ _ both => .pure both.1

theorem upsertSymbol (identity : String) :
    Alike c f (Inventory.upsertSymbol identity) (Inventory.upsertSymbol identity) (Twin .symbol) :=
  (require _ _).bind fun _ _ _ _ _ _ =>
    (mergedId (.symbol identity) rfl nofun nofun).ofStore

theorem upsertComponent (artifact : Artifact) :
    Alike c f (Inventory.upsertComponent artifact) (Inventory.upsertComponent artifact)
      (Twin .component) :=
  (require _ _).bind fun _ _ _ _ _ _ =>
    (mergedId (.component artifact) rfl nofun nofun).ofStore

theorem upsertAsset (artifact : Artifact) :
    Alike c f (Inventory.upsertAsset artifact) (Inventory.upsertAsset artifact) (Twin .asset) :=
  (require _ _).bind fun _ _ _ _ _ _ =>
    (mergedId (.asset artifact) rfl nofun nofun).ofStore

theorem provide {owner owner' : NodeId} (library : Twin .library c f owner owner')
    (identity : String) :
    Alike c f (Inventory.provide owner identity) (Inventory.provide owner' identity)
      (Twin .symbol) := by
  refine (mergedId (.symbol identity) rfl nofun nofun).bind
    fun c₁ f₁ a b grown twin => ?_
  exact (link .provides (library.grown grown) twin rfl nofun nofun).bind
    fun c₂ f₂ _ _ grown' _ => .pure (twin.grown grown')

theorem upsertLibrary (artifact : Artifact) (symbols : List String) :
    Alike c f (Inventory.upsertLibrary artifact symbols) (Inventory.upsertLibrary artifact symbols)
      fun c₁ f₁ x y => Twin .library c₁ f₁ x.library y.library ∧
        List.Forall₂ (Twin .symbol c₁ f₁) x.symbols y.symbols := by
  refine (require _ _).bind fun c₁ f₁ _ _ _ _ => (require _ _).bind fun c₂ f₂ _ _ _ _ => ?_
  refine (atomically ?_).ofStore
  refine (mergedId (.library artifact) rfl nofun nofun).bind
    fun c₃ f₃ a b _ library => ?_
  exact (each (stable_twin .library a b) (stable_twin .symbol)
    (fun library identity _ => provide library identity) library).bind
      fun c₄ f₄ xs ys grown provided => .pure ⟨library.grown grown, provided⟩

theorem hostComponent (component asset : Artifact) :
    Alike c f (Inventory.hostComponent component asset) (Inventory.hostComponent component asset)
      fun _ _ x y => y = x := by
  refine (findArtifact (.component component) rfl).bind fun c₁ f₁ a b _ guest => ?_
  refine (findArtifact (.asset asset) rfl).bind fun c₂ f₂ a' b' grown host => ?_
  exact ((link .hostedBy (guest.grown grown) host rfl nofun nofun).mono
    fun _ _ _ _ _ both => both.1).ofStore

theorem compose {system system' : NodeId} (twin : Twin .system c f system system')
    (component : Artifact) :
    Alike c f (Inventory.compose system component) (Inventory.compose system' component)
      fun _ _ x y => y = x := by
  refine (findArtifact (.component component) rfl).bind fun c₁ f₁ a b grown part => ?_
  exact ((link .composedOf (twin.grown grown) part rfl nofun nofun).mono
    fun _ _ _ _ _ both => both.1).ofStore

theorem ofResult {α β : Type} {R : Contents → Renaming → α → β → Prop}
    {x : BlastRadius.Outcomes α} {y : BlastRadius.Outcomes β} (outcomes : Outcomes (R c f) x y) :
    Alike c f (ImpactProgram.ofResult x.result) (ImpactProgram.ofResult y.result)
      fun _ f₁ _ _ => f₁ = f := by
  obtain ⟨successes, failures⟩ := x
  obtain ⟨successes', failures'⟩ := y
  obtain ⟨related, same⟩ := outcomes
  obtain rfl : failures' = failures := same
  cases failures' with
  | nil => exact .pure rfl
  | cons failure rest =>
      have same : BlastRadius.Outcomes.attempted ⟨successes', failure :: rest⟩ =
          BlastRadius.Outcomes.attempted ⟨successes, failure :: rest⟩ := by
        rw [BlastRadius.Outcomes.attempted, BlastRadius.Outcomes.attempted, related.length_eq]
      simp only [BlastRadius.Outcomes.result, same]
      exact .throw _

theorem upsertSystem (name : String) (components : List Artifact) :
    Alike c f (Inventory.upsertSystem name components) (Inventory.upsertSystem name components)
      (Twin .system) := by
  refine (require _ _).bind fun c₁ f₁ _ _ _ _ => ?_
  refine (mergedId (.system name) rfl nofun nofun).ofStore.bind
    fun c₂ f₂ a b _ system => ?_
  refine (collect (R := fun _ _ x y => y = x) (stable_twin .system a b) (fun _ _ => stable_const _)
    (fun system component _ => compose system component) system ⟨.nil, rfl⟩).bind
      fun c₃ f₃ x y grown outcomes => ?_
  exact (ofResult (R := fun _ _ x y => y = x) outcomes).bind fun c₄ f₄ _ _ grown' _ =>
    .pure (system.grown (grown.trans grown'))

theorem upsertEndpoint (endpoint : EndpointRef) :
    Alike c f (Inventory.upsertEndpoint endpoint) (Inventory.upsertEndpoint endpoint)
      (Twin .endpoint) := by
  refine (require _ _).bind fun c₁ f₁ _ _ _ _ => ?_
  refine (findArtifact (.component endpoint.component) rfl).bind fun c₂ f₂ a b _ owner => ?_
  refine (atomically ?_).ofStore
  obtain ⟨component, rfl⟩ := owner
  refine (mergeNode (.endpoint endpoint.name a) rfl ?_ nofun).bind
    fun c₃ f₃ x y grown both => ?_
  · rintro _ _ ⟨⟩
    exact component
  · have owner : Twin .component c₃ f₃ a (f₂ a) := Twin.grown ⟨component, rfl⟩ grown
    exact (link .exposes both.1 owner rfl nofun nofun).bind
      fun c₄ f₄ _ _ grown' _ => .pure (both.1.grown grown')

theorem findEndpoint (endpoint : EndpointRef) :
    Alike c f (Inventory.findEndpoint endpoint) (Inventory.findEndpoint endpoint)
      (Twin .endpoint) := by
  refine (findArtifact (.component endpoint.component) rfl).bind fun c₁ f₁ a b _ owner => ?_
  obtain ⟨_, rfl⟩ := owner
  exact findAs (.endpoint endpoint.name a) (toString endpoint)

theorem addServes (endpoint : EndpointRef) (symbol : String) :
    Alike c f (Inventory.addServes endpoint symbol) (Inventory.addServes endpoint symbol)
      fun _ _ x y => y = x := by
  refine (findEndpoint endpoint).bind fun c₁ f₁ a b _ served => ?_
  refine (findSymbol symbol).bind fun c₂ f₂ a' b' grown server => ?_
  exact ((link .serves (served.grown grown) server rfl nofun nofun).mono
    fun _ _ _ _ _ both => both.1).ofStore

end BlastRadius.Alike
