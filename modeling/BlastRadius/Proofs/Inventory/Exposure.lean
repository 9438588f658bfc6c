import BlastRadius.Proofs.Impact.Interleavings

/-!
Endpoints of components that are looked up first. An upsert of an endpoint finds the component in
one step and records the endpoint in another, and in between the identifier may come to stand for
another component. The endpoint is then recorded for that one.
-/

namespace BlastRadius

namespace Contents

variable {c c' : Contents} {q : Call} {id owner : NodeId} {name : String}

/-- Valid contents in which an endpoint is exposed by no component but the one in its key. -/
structure Owned (c : Contents) : Prop where
  valid : c.Valid
  owner : ∀ s t, ⟨s, .exposes, t⟩ ∈ c.edges →
    ∃ name, c.node? s = some (.endpoint name t)

/-- An endpoint that has just been recorded. -/
structure Exposed (c c' : Contents) (name : String) (owner id : NodeId) : Prop where
  owned : c'.Owned
  node : c'.node? id = some (.endpoint name owner)
  edge : ⟨id, .exposes, owner⟩ ∈ c'.edges
  components : ∀ k artifact,
    c'.node? k = some (.component artifact) ↔ c.node? k = some (.component artifact)

namespace Owned

theorem empty : empty.Owned := ⟨empty_valid, fun _ _ edge => absurd edge (Set.notMem_empty _)⟩

theorem change (owned : c.Owned) (change : c.Change q c')
    (frame : q.touches .endpoint .exposes = false) :
    c'.Owned := by
  obtain ⟨nodes, edges⟩ := change.untouched frame
  refine ⟨change.valid owned.valid, fun s t edge => ?_⟩
  obtain ⟨name, found⟩ := owned.owner s t ((edges s t).mp edge)
  exact ⟨name, (nodes s _ rfl).mpr found⟩

theorem without (owned : c.Owned) (kind : NodeKind) : (c.without kind).Owned := by
  refine ⟨owned.valid.without kind, fun s t edge => ?_⟩
  obtain ⟨name, found⟩ := owned.owner s t edge.1
  exact ⟨name, without_node? found fun same => edge.2.1 ⟨_, found, same⟩⟩

theorem insert (owned : c.Owned) {node : Node} (fresh : c.node? id = none)
    (free : ∀ key, node.key? = some key → c.keyed key = ∅) : (c.insert id node).Owned := by
  refine ⟨owned.valid.insert fresh free, fun s t edge => ?_⟩
  obtain ⟨name, found⟩ := owned.owner s t edge
  exact ⟨name, insert_node?_of_some fresh found⟩

theorem exposed (owned : c.Owned) (found : c.node? id = some (.endpoint name owner)) {target : Node}
    (held : c.node? owner = some target)
    (permitted : Relation.exposes.permits .endpoint target.kind = true) :
    Exposed c (c.link ⟨id, .exposes, owner⟩) name owner id where
  owned := by
    refine ⟨owned.valid.link found held permitted, fun s t edge => ?_⟩
    rcases edge with same | edge
    · cases same
      exact ⟨name, found⟩
    · exact owned.owner s t edge
  node := found
  edge := Or.inl rfl
  components _ _ := Iff.rfl

end Owned

theorem Exposed.targets (exposed : Exposed c c' name owner id) :
    c'.targets id .exposes = {owner} := by
  refine Set.Subset.antisymm (fun t edge => ?_) (Set.singleton_subset_iff.mpr exposed.edge)
  obtain ⟨other, found⟩ := exposed.owned.owner id t edge
  have same := exposed.node.symm.trans found
  simp only [Option.some.injEq, Node.endpoint.injEq] at same
  exact same.2.symm

theorem Exposed.component (exposed : Exposed c c' name owner id) : owner ∈ c'.ofKind .component :=
  exposed.owned.valid.target_kind (by decide) exposed.edge

theorem Exposed.exists_iff (exposed : Exposed c c' name owner id) (artifact : Artifact) :
    (∃ k ∈ c'.targets id .exposes, c'.node? k = some (.component artifact)) ↔
      c.node? owner = some (.component artifact) := by
  rw [exposed.targets]
  simp only [Set.mem_singleton_iff, exists_eq_left]
  exact exposed.components owner artifact

end Contents

open Contents

theorem exposing_cases {c c' : Contents} {name : String} {owner : NodeId}
    {x : Except StoreError NodeId} (valid : c.Valid)
    (ran : (Inventory.exposing name owner).run.Runs Tried c x c') :
    (∃ id m, x = .ok id ∧
      (m = c ∨ c.node? id = none ∧ c.keyed (.endpoint name owner) = ∅ ∧
        m = c.insert id (.endpoint name owner)) ∧
      m.node? id = some (.endpoint name owner) ∧
      (∃ target, m.node? owner = some target ∧
        Relation.exposes.permits .endpoint target.kind = true) ∧
      c' = m.link ⟨id, .exposes, owner⟩) ∨ ∃ error, x = .error error := by
  obtain ⟨merged, m, merging, linking⟩ := runs_exceptT_bind.mp ran
  have linked {id : NodeId} {isNew : Bool} (found : m.node? id = some (.endpoint name owner))
      (same : merged = .ok (id, isNew)) :
      x = .ok id ∧ (∃ target, m.node? owner = some target ∧
        Relation.exposes.permits .endpoint target.kind = true) ∧
          c' = m.link ⟨id, .exposes, owner⟩ ∨ ∃ error, x = .error error := by
    subst same
    obtain ⟨added, m', insertion, rest⟩ := runs_exceptT_bind.mp linking
    have answer := (runs_storeCall.mp insertion).linked
    rcases m.linked_cases ⟨id, .exposes, owner⟩ with
      ⟨source, target, hs, ht, permitted, done⟩ | ⟨error, done⟩
    · cases done.symm.trans answer
      obtain ⟨rfl, rfl⟩ := rest
      cases found.symm.trans hs
      exact Or.inl ⟨rfl, ⟨target, ht, permitted⟩, rfl⟩
    · cases done.symm.trans answer
      exact Or.inr ⟨error, rest.1⟩
  rcases valid.tried_mergeNode rfl merging with
    ⟨id, ⟨node, found, key⟩, same, old⟩ | ⟨id, fresh, free, same, new⟩ |
      ⟨error, rfl, rfl⟩
  · obtain rfl := Node.eq_of_key? key
    have found' : m.node? id = some (.endpoint name owner) := old ▸ found
    refine (linked found' same).imp_left fun ⟨ok, held, after⟩ => ?_
    exact ⟨id, m, ok, Or.inl old, found', held, after⟩
  · have found' : m.node? id = some (.endpoint name owner) := new ▸ insert_node?_self id _
    refine (linked found' same).imp_left fun ⟨ok, held, after⟩ => ?_
    exact ⟨id, m, ok, Or.inr ⟨fresh, free, new⟩, found', held, after⟩
  · exact Or.inr ⟨error, linking.1⟩

theorem exposing_exposed {c c' : Contents} {name : String} {owner : NodeId}
    {x : Except StoreError NodeId} (owned : c.Owned)
    (ran : (Inventory.exposing name owner).run.Runs Tried c x c') :
    (∃ id, x = .ok id ∧ Exposed c c' name owner id) ∨ ∃ error, x = .error error := by
  refine (exposing_cases owned.valid ran).imp_left ?_
  rintro ⟨id, m, ok, rfl | ⟨fresh, free, rfl⟩, found, ⟨target, held, permitted⟩, rfl⟩
  · exact ⟨id, ok, owned.exposed found held permitted⟩
  · have owned' : (c.insert id (.endpoint name owner)).Owned :=
      owned.insert fresh fun key own => by
        cases own
        exact free
    have exposed := owned'.exposed found held permitted
    refine ⟨id, ok, exposed.owned, exposed.node, exposed.edge, fun k artifact => ?_⟩
    refine (exposed.components k artifact).trans ?_
    by_cases self : k = id
    · rw [self, insert_node?_self, fresh]
      exact iff_of_false nofun nofun
    · rw [insert_node?_of_ne _ self]

/-- Contents in which endpoints are exposed by their components only become such contents. -/
def OwnersStay (c c' : Contents) : Prop := c.Owned → c'.Owned

theorem kept_owners : Kept OwnersStay := by
  have refl (c : Contents) : OwnersStay c c := id
  have trans {a b c : Contents} (first : OwnersStay a b) (second : OwnersStay b c) :
      OwnersStay a c := second ∘ first
  have call {q : Call} (frame : q.touches .endpoint .exposes = false) :
      Keeps OwnersStay (StoreProgram.call q) :=
    keeps_call fun change owned => owned.change change frame
  refine ⟨refl, trans, fun plain change owned => ?_, fun owner _ c x c' ran owned => ?_,
    fun request => ?_, fun identity symbol => ?_⟩
  · exact owned.change change (Call.untouched_of_plain plain).1
  · rcases exposing_exposed owned ran with ⟨id, rfl, exposed⟩ | ⟨error, rfl⟩
    · exact exposed.owned
    · exact owned
  · exact keeps_recording refl trans (call rfl) fun _ _ => call rfl
  · exact keeps_registering refl trans (fun _ => call rfl) (call rfl) fun _ _ => call rfl

theorem keeps_owners (operation : Operation) : Keeps OwnersStay operation.perform := by
  refine operation.keeps kept_owners (fun kind _ => keeps_call fun change owned => ?_)
    fun _ => keeps_call fun change owned => ?_
  · cases change with
    | none => exact owned
    | removal => exact owned.without kind
  · cases change with
    | none => exact owned
    | reset => exact .empty

/-- Components stay what they are. -/
def ComponentsStay (c c' : Contents) : Prop :=
  ∀ k artifact, c.node? k = some (.component artifact) → c'.node? k = some (.component artifact)

theorem Contents.Change.componentsStay {c c' : Contents} {q : Call} (change : c.Change q c')
    (other : ∀ kind, q = .removeKind kind → kind ≠ .component) (notReset : q ≠ .reset) :
    ComponentsStay c c' := by
  intro k artifact found
  cases change with
  | node fresh => exact insert_node?_of_some fresh found
  | removal kind => exact without_node? found (other kind rfl).symm
  | reset => exact absurd rfl notReset
  | _ => exact found

theorem kept_components : Kept ComponentsStay := by
  have refl (c : Contents) : ComponentsStay c c := fun _ _ => id
  have trans {a b c : Contents} (first : ComponentsStay a b) (second : ComponentsStay b c) :
      ComponentsStay a c := fun k artifact found => second k artifact (first k artifact found)
  have call {q : Call} (frame : q ≠ .reset ∧ ∀ kind, q ≠ .removeKind kind) :
      Keeps ComponentsStay (StoreProgram.call q) :=
    keeps_call fun change => change.componentsStay (fun kind same =>
      absurd same (frame.2 kind)) frame.1
  refine ⟨refl, trans, fun plain change => ?_, fun owner _ => ?_, fun request => ?_,
    fun identity symbol => ?_⟩
  · refine change.componentsStay ?_ ?_
    · rintro kind rfl
      cases plain
    · rintro rfl
      cases plain
  · exact keeps_exposing refl trans (call ⟨nofun, nofun⟩) fun _ => call ⟨nofun, nofun⟩
  · exact keeps_recording refl trans (call ⟨nofun, nofun⟩) fun _ _ => call ⟨nofun, nofun⟩
  · exact keeps_registering refl trans (fun _ => call ⟨nofun, nofun⟩) (call ⟨nofun, nofun⟩)
      fun _ _ => call ⟨nofun, nofun⟩

theorem keeps_components {operation : Operation} (spares : .component ∉ operation.removed) :
    Keeps ComponentsStay operation.perform := by
  refine operation.keeps kept_components (fun kind mem => keeps_call fun change => ?_) ?_
  · refine change.componentsStay ?_ nofun
    rintro _ ⟨rfl⟩ rfl
    exact spares mem
  · rintro rfl
    exact absurd (by decide) spares

namespace Inventory

/-- What is left of an upsert once the component is found. -/
def exposure (name : String) (owner : NodeId) : Program (Except ImpactError NodeId) :=
  (ImpactProgram.ofStore (StoreProgram.atomically (exposing name owner))).run

/-- What is left of an upsert after the look-up of the component. -/
def afterLookup (r : Artifact) (name : String) :
    Except StoreError (Option NodeId) → Program (Except ImpactError NodeId)
  | .ok (some owner) => exposure name owner
  | .ok none => return .error (.notFound .component (toString (NodeKey.component r)))
  | .error error => return .error (.store error)

theorem upsertEndpoint_run (r : Artifact) {name : String} (named : name.isEmpty = false) :
    (upsertEndpoint ⟨r, name⟩).run = .call (.findNode (.component r)) (afterLookup r name) := by
  rw [upsertEndpoint, ImpactProgram.require, named]
  refine congrArg (Program.call (.findNode (.component r))) (funext fun found => ?_)
  rcases found with error | owner | owner <;> rfl

end Inventory

namespace Medium

variable {medium : Medium} {s : medium.State} {r : Artifact} {name : String} {owner : NodeId}

theorem advance_upsertEndpoint (sound : medium.view.sound s) :
    (∃ error, ((Inventory.upsertEndpoint ⟨r, name⟩).run.advance medium.store s).1 =
      .done (.error error)) ∨
    ∃ owner, (medium.view.holds s).node? owner = some (.component r) ∧
      ((Inventory.upsertEndpoint ⟨r, name⟩).run.advance medium.store s).1 =
        Inventory.exposure name owner := by
  cases named : name.isEmpty with
  | true =>
      rw [Inventory.upsertEndpoint, ImpactProgram.require, named]
      exact Or.inl ⟨_, rfl⟩
  | false =>
      have looks : (Call.findNode (.component r)).inserts →
          medium.view.level s < NodeId.count := fun inserts => by cases inserts
      have stepped := (medium.faithful.answers (.findNode (.component r)) sound looks).1
      have answer : (medium.store.call (.findNode (.component r)) s).1 =
          .ok ((medium.view.holds s).find? (.component r)) :=
        (congrArg Prod.fst (Option.some.inj stepped)).symm
      rw [Inventory.upsertEndpoint_run r named, Program.advance, answer]
      cases known : (medium.view.holds s).find? (.component r) with
      | none => exact Or.inl ⟨_, rfl⟩
      | some owner =>
          obtain ⟨node, found, key⟩ := (medium.valid_of_sound sound).find?_eq_some.mp known
          exact Or.inr ⟨owner, found.trans (congrArg some (Node.eq_of_key? key)), rfl⟩

theorem advance_exposure (sound : medium.view.sound s) (owned : (medium.view.holds s).Owned)
    (enough : medium.Suffices (Inventory.exposure name owner).head s) :
    ∃ x, ((Inventory.exposure name owner).advance medium.store s).1 = .done x ∧
      ∀ id, x = .ok id → Exposed (medium.view.holds s)
        (medium.view.holds ((Inventory.exposure name owner).advance medium.store s).2) name
          owner id := by
  have enough' : medium.Suffices (Inventory.exposure name owner) s := by
    cases medium with
    | memory => exact ⟨enough.1, trivial⟩
    | database => trivial
  obtain ⟨r, m, inner, answer, same⟩ := (medium.runs_tried _ sound enough').1
  refine ⟨((Inventory.exposure name owner).run medium.store s).1, rfl, fun id added => ?_⟩
  rw [answer] at added
  rcases exposing_exposed owned inner with ⟨other, rfl, exposed⟩ | ⟨error, rfl⟩
  · cases added
    exact same ▸ exposed
  · cases added

end Medium

namespace Medium

variable {medium : Medium} {history operations : List Operation} {endpoint : EndpointRef}
  {turns : List Client}

/-- Two clients of the store after earlier operations, after some turns. The first upserts an
endpoint, the second performs operations. -/
def upserting (medium : Medium) (history : List Operation) (endpoint : EndpointRef)
    (operations : List Operation) (turns : List Client) :
    TwoClients medium.State (Except ImpactError NodeId) Unit :=
  TwoClients.run medium.store
    ⟨(Inventory.upsertEndpoint endpoint).run, Operation.inTurn operations,
      medium.reached history⟩ turns

def heldWhile (medium : Medium) (history : List Operation) (endpoint : EndpointRef)
    (operations : List Operation) (turns : List Client) : Contents :=
  medium.view.holds (medium.upserting history endpoint operations turns).state

theorem upserting_concat (client : Client) :
    medium.upserting history endpoint operations (turns ++ [client]) =
      (medium.upserting history endpoint operations turns).turn medium.store client :=
  TwoClients.run_concat ..

section Turns

variable (fits : medium.Fits history)
include fits

theorem upserting_owned (shares : medium.Shares
    (medium.upserting history endpoint operations []) turns) :
    medium.view.sound (medium.upserting history endpoint operations turns).state ∧
      (medium.heldWhile history endpoint operations turns).Owned := by
  obtain ⟨stays, sound, -⟩ := keeps_turns
    (medium.upserting history endpoint operations []) kept_owners.refl kept_owners.trans
    (kept_owners.upsertEndpoint endpoint)
    (Operation.inTurn_each fun operation _ => keeps_owners operation) (reached_sound fits) shares
  exact ⟨sound, stays (contents_invariant .empty keeps_owners fits)⟩

/-- How far the upsert has come: it has not begun, it has found the component, or it is over. -/
theorem upserting_cases {r : Artifact} {name : String}
    (shares : medium.Shares (medium.upserting history ⟨r, name⟩ operations []) turns) :
    .first ∉ turns ∨
    (∃ owner early late, turns = early ++ .first :: late ∧ .first ∉ late ∧
      (medium.heldWhile history ⟨r, name⟩ operations early).node? owner =
        some (.component r) ∧
      (medium.upserting history ⟨r, name⟩ operations turns).first =
        Inventory.exposure name owner) ∨
    ∃ x, (medium.upserting history ⟨r, name⟩ operations turns).first = .done x := by
  induction turns using List.reverseRecOn with
  | nil => exact Or.inl List.not_mem_nil
  | append_singleton before client ih =>
      have shares' := shares.before (List.prefix_append before [client])
      obtain ⟨sound, owned⟩ := upserting_owned fits shares'
      rw [upserting_concat]
      cases client with
      | second =>
          rcases ih shares' with idle | ⟨owner, early, late, rfl, idle, found, left⟩ |
            ⟨x, ended⟩
          · exact Or.inl (by simp [idle])
          · exact Or.inr (Or.inl
              ⟨owner, early, late ++ [.second], by simp, by simp [idle], found, left⟩)
          · exact Or.inr (Or.inr ⟨x, ended⟩)
      | first =>
          rcases ih shares' with idle | ⟨owner, early, late, rfl, idle, found, left⟩ |
            ⟨x, ended⟩
          · have start : (medium.upserting history ⟨r, name⟩ operations before).first =
                (Inventory.upsertEndpoint ⟨r, name⟩).run := TwoClients.run_first _ _ idle
            rw [TwoClients.turn, start]
            rcases advance_upsertEndpoint sound with ⟨error, ended⟩ | ⟨owner, found, left⟩
            · exact Or.inr (Or.inr ⟨_, ended⟩)
            · exact Or.inr (Or.inl ⟨owner, before, [], rfl, List.not_mem_nil, found, left⟩)
          · rw [TwoClients.turn, left]
            exact Or.inr (Or.inr ⟨_, rfl⟩)
          · rw [TwoClients.turn, ended]
            exact Or.inr (Or.inr ⟨x, rfl⟩)

end Turns

/-- An upsert that answers with an endpoint has recorded it for the node that it found to be the
component. This is what it was asked for exactly when the node is still that component when the
endpoint is recorded, and so whenever the other client removes no components. -/
theorem upsertEndpoint_exposes_iff (medium : Medium) {history operations : List Operation}
    (fits : medium.Fits history) {r : Artifact} {name : String} {turns : List Client} {id : NodeId}
    (shares : medium.Shares (medium.upserting history ⟨r, name⟩ operations [])
      (turns ++ [.first]))
    (waiting : (medium.upserting history ⟨r, name⟩ operations turns).first.answer? = none)
    (answered : (medium.upserting history ⟨r, name⟩ operations
      (turns ++ [.first])).first.answer? =
      some (.ok id)) :
    let held := medium.heldWhile history ⟨r, name⟩ operations
    let after := held (turns ++ [.first])
    ∃ owner early late, turns = early ++ .first :: late ∧ .first ∉ late ∧
      (held early).node? owner = some (.component r) ∧
      after.node? id = some (.endpoint name owner) ∧
      after.targets id .exposes = {owner} ∧ owner ∈ after.ofKind .component ∧
      ((∃ k ∈ after.targets id .exposes, after.node? k = some (.component r)) ↔
        (held turns).node? owner = some (.component r)) ∧
      ((∀ operation ∈ operations, .component ∉ operation.removed) →
        ∃ k ∈ after.targets id .exposes, after.node? k = some (.component r)) := by
  intro held after
  have shares' := shares.before (List.prefix_append turns [.first])
  obtain ⟨sound, owned⟩ := upserting_owned fits shares'
  rw [upserting_concat] at answered
  -- Before its last turn the client has not begun, or has found the component, or has ended.
  rcases upserting_cases fits shares' with
    idle | ⟨owner, early, late, rfl, idle, found, left⟩ | ⟨x, ended⟩
  · have start : (medium.upserting history ⟨r, name⟩ operations turns).first =
        (Inventory.upsertEndpoint ⟨r, name⟩).run := TwoClients.run_first _ _ idle
    rw [TwoClients.turn, start] at answered
    rcases advance_upsertEndpoint sound with ⟨error, ended⟩ | ⟨owner, found, left⟩
    · rw [ended] at answered
      cases answered
    · rw [left] at answered
      cases answered
  · have enough := shares _ .first (List.prefix_refl _)
    change medium.Suffices (medium.upserting history ⟨r, name⟩ operations _).first.head
        _ at enough
    rw [left] at enough
    obtain ⟨x, ended, recorded⟩ := advance_exposure sound owned enough
    have exposed : Exposed (held (early ++ .first :: late)) after name owner id := by
      change Exposed _ (medium.view.holds (medium.upserting ..).state) _ _ _
      rw [upserting_concat, TwoClients.turn, left]
      refine recorded id ?_
      rw [TwoClients.turn, left, ended] at answered
      exact Option.some.inj answered
    refine ⟨owner, early, late, rfl, idle, found, exposed.node, exposed.targets,
      exposed.component,
      exposed.exists_iff r, fun spared => (exposed.exists_iff r).mpr ?_⟩
    have stay : ComponentsStay (held early) (held (early ++ .first :: late)) :=
      keeps_later (medium.upserting history ⟨r, name⟩ operations []) kept_components.refl
        kept_components.trans
        (kept_components.upsertEndpoint ⟨r, name⟩)
        (Operation.inTurn_each fun operation mem => keeps_components (spared operation mem))
        (reached_sound fits) shares'
    exact stay owner r found
  · rw [ended] at waiting
    cases waiting

/-- Between the two steps the other client records the use of another component. -/
theorem upsertEndpoint_exposes_iff_beside_ingestion :
    let history : List Operation := [.upsertComponent ⟨"web", "1.0"⟩]
    let operations : List Operation :=
      [.upsertSymbol "parse", .upsertComponent ⟨"store", "2.0"⟩]
    let turns : List Client := [.second, .first, .second, .second, .second]
    let clients := Medium.database.upserting history ⟨⟨"web", "1.0"⟩, "login"⟩ operations
    let after := Medium.database.heldWhile history ⟨⟨"web", "1.0"⟩, "login"⟩ operations
      (turns ++ [.first])
    Medium.database.Fits history ∧ Medium.database.Shares (clients []) (turns ++ [.first]) ∧
    (clients turns).first.answer? = none ∧
    (clients (turns ++ [.first])).first.answer? = some (.ok ⟨4⟩) ∧
    ∃ k ∈ after.targets ⟨4⟩ .exposes, after.node? k =
      some (.component ⟨"web", "1.0"⟩) := by
  intro history operations turns clients after
  have fits : Medium.database.Fits history := fun _ _ _ => trivial
  have shares : Medium.database.Shares (clients []) (turns ++ [.first]) := fun _ _ _ => trivial
  have waiting : (clients turns).first.answer? = none := by decide +kernel
  have answered : (clients (turns ++ [.first])).first.answer? = some (.ok ⟨4⟩) :=
    Program.answer?_eq_ok (by decide +kernel)
  obtain ⟨_, _, _, _, _, _, _, _, _, _, spared⟩ :=
    upsertEndpoint_exposes_iff .database fits shares waiting answered
  exact ⟨fits, shares, waiting, answered, spared (by decide)⟩

/-- Between the two steps the other client removes the component, and the identifier comes to stand
for another one. The endpoint is recorded for that one. -/
theorem upsertEndpoint_exposed_by_another :
    let history : List Operation := [.upsertComponent ⟨"web", "1.0"⟩]
    let operations : List Operation :=
      [.resetDomain .topology, .upsertComponent ⟨"store", "2.0"⟩]
    let turns : List Client := [.first, .second, .second, .second]
    let clients := Medium.database.upserting history ⟨⟨"web", "1.0"⟩, "login"⟩ operations
    let after := Medium.database.heldWhile history ⟨⟨"web", "1.0"⟩, "login"⟩ operations
      (turns ++ [.first])
    (clients turns).first.answer? = none ∧
    (clients (turns ++ [.first])).first.answer? = some (.ok ⟨2⟩) ∧
    after.node? ⟨1⟩ = some (.component ⟨"store", "2.0"⟩) ∧
      after.targets ⟨2⟩ .exposes = {⟨1⟩} ∧
    ¬ ∃ k ∈ after.targets ⟨2⟩ .exposes,
      after.node? k = some (.component ⟨"web", "1.0"⟩) := by
  intro history operations turns clients after
  have waiting : (clients turns).first.answer? = none := by decide +kernel
  have answered : (clients (turns ++ [.first])).first.answer? = some (.ok ⟨2⟩) :=
    Program.answer?_eq_ok (by decide +kernel)
  have other : after.node? ⟨1⟩ = some (.component ⟨"store", "2.0"⟩) := by decide +kernel
  have edges : Tables.links (Database.tables (clients (turns ++ [.first])).state) =
      [⟨⟨2⟩, .exposes, ⟨1⟩⟩] := by decide +kernel
  have one : after.targets ⟨2⟩ .exposes = {⟨1⟩} :=
    (Database.targets_of_links edges ⟨2⟩ .exposes).trans (by ext k; simp)
  refine ⟨waiting, answered, other, one, ?_⟩
  rw [one]
  rintro ⟨_, rfl, found⟩
  exact absurd (other.symm.trans found) (by decide)

end Medium

end BlastRadius
