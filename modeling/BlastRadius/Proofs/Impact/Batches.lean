import BlastRadius.Proofs.Impact.BestEffort
import BlastRadius.Proofs.Impact.Climbing

/-!
The requests with many targets: the calls of a symbol, the calls of an endpoint and the
components of a system. Which targets are bad is decided by the keys that the store knows when
the request begins, as the nodes that it makes on its way are endpoints and systems and no target
is looked up among these.
-/

namespace BlastRadius

/-- A request with many targets, the targets apart. -/
inductive Batch where
  | calls (caller : String)
  | networkCalls (caller : EndpointRef)
  | system (name : String)

/-- The error of a look-up, unless the key is known. -/
def NodeKey.missing? (known : NodeKey → Bool) (key : NodeKey) (shown : String) :
    Option ImpactError :=
  if known key then none else some (.notFound key.kind shown)

/-- The error of an upsert of an endpoint that has no name or no component. -/
def EndpointRef.refusal? (known : NodeKey → Bool) (endpoint : EndpointRef) : Option ImpactError :=
  if endpoint.name.isEmpty then some (.invalid "endpoint name must not be empty")
  else NodeKey.missing? known (.component endpoint.component)
    (toString (NodeKey.component endpoint.component))

namespace Batch

abbrev Target : Batch → Type
  | calls _ => String
  | networkCalls _ => EndpointRef
  | system _ => Artifact

def operation : (batch : Batch) → List batch.Target → Operation
  | calls caller, targets => .addCalls caller targets
  | networkCalls caller, targets => .addNetworkCalls caller targets
  | system name, targets => .upsertSystem name targets

def describe : (batch : Batch) → batch.Target → String
  | calls _, (callee : String) => s!"symbol '{callee}'"
  | networkCalls _, (callee : EndpointRef) => toString callee
  | system _, (part : Artifact) => s!"component {part}"

def refusal? (known : NodeKey → Bool) : (batch : Batch) → batch.Target → Option ImpactError
  | calls _, (callee : String) => NodeKey.missing? known (.symbol callee) callee
  | networkCalls _, (callee : EndpointRef) => callee.refusal? known
  | system _, (part : Artifact) =>
      NodeKey.missing? known (.component part) (toString (NodeKey.component part))

/-- The caller is there, or can be upserted, or the system has a name. -/
def Accepted (known : NodeKey → Bool) : Batch → Prop
  | calls caller => known (.symbol caller) = true
  | networkCalls caller => caller.name ≠ "" ∧ known (.component caller.component) = true
  | system name => name ≠ ""

end Batch

open Contents

def IsOfKind (kind : NodeKind) (id : NodeId) (m : Contents) : Prop := id ∈ m.ofKind kind

theorem IsOfKind.extended {kind : NodeKind} {id : NodeId} {m m' : Contents}
    (own : IsOfKind kind id m)
    (extended : m.ExtendedBy m') : IsOfKind kind id m' := by
  obtain ⟨node, found, same⟩ := own
  exact ⟨node, extended.nodes found, same⟩

/-- The known keys are those of the nodes. -/
def Contents.Knows (c : Contents) (known : NodeKey → Bool) : Prop :=
  ∀ key, known key = true ↔ (c.keyed key).Nonempty

/-- What is wanted of a block: it fails only when identifiers have run out where it begins. -/
def Contents.Affords {α : Type} (c : Contents) (Q : α → Contents → Prop) :
    Except StoreError α → Contents → Prop
  | .ok value, m => Q value m
  | .error error, _ => (∃ row, error = .idOverflow row) ∧ c.Exhausted

namespace Ensures

variable {α : Type} {c m : Contents} {known : NodeKey → Bool} {a : NodeId} {net : CallNetwork}

theorem atomically_affords {body : StoreProgram α} {Q : α → Contents → Prop}
    (ensures : Ensures .trying body c (c.Affords Q)) :
    Ensures .trying (StoreProgram.atomically body) c fun x m =>
      c.Affords Q x m ∧ ∀ error, x = .error error → m = c := by
  refine atomically (ensures.mono fun x m holds => ?_)
  cases x with
  | ok value => exact ⟨holds, nofun⟩
  | error error => exact ⟨holds, fun _ _ => rfl⟩

/-- A key that is not that of an endpoint or a system is found if it was known at first. -/
theorem findKnown (knows : c.Knows known) (widens : c.Widens m) (key : NodeKey)
    (endpoint : key.node.kind ≠ .endpoint) (system : key.node.kind ≠ .system) (shown : String) :
    Ensures .trying (ImpactProgram.findAs key shown) m fun x m' =>
      m' = m ∧ Meets (fun id m => id ∈ m.keyed key) (key.missing? known shown) x m' := by
  have same := widens.keyed endpoint system
  have look := Leads.ofStore (Reads.findNode (c := m) key)
  cases found : m.find? key with
  | some id =>
      have own := widens.valid.find?_eq_some.mp found
      have yes : known key = true := (knows key).mpr ⟨id, same ▸ own⟩
      rw [found] at look
      refine of_leads (look.bind (.pure id)) ⟨rfl, ?_⟩
      rwa [NodeKey.missing?, if_pos yes]
  | none =>
      have no : ¬ known key = true := by
        rw [knows, ← same, find?_eq_none.mp found]
        exact Set.not_nonempty_empty
      rw [found] at look
      refine of_leads (look.bind (.throw _)) ⟨rfl, ?_⟩
      rw [NodeKey.missing?, if_neg no]
      rfl

theorem findSymbol (knows : c.Knows known) (widens : c.Widens m) (identity : String) :
    Ensures .trying (ImpactProgram.findSymbol identity) m fun x m' =>
      m.Widens m' ∧ Meets (IsOfKind .symbol)
        (NodeKey.missing? known (.symbol identity) identity) x m' := by
  refine (findKnown knows widens (.symbol identity) nofun nofun identity).mono ?_
  rintro x _ ⟨rfl, meets⟩
  refine ⟨widens.valid.widens, ?_⟩
  cases x with
  | ok id =>
      obtain ⟨there, own⟩ := meets_ok.mp meets
      exact meets_ok.mpr ⟨there, _, mem_keyed.mp own, rfl⟩
  | error error => exact meets_error.mpr (meets_error.mp meets)

theorem exposing_affords (valid : c.Valid) (name : String) {owner : NodeId} {component : Artifact}
    (owned : c.node? owner = some (.component component)) :
    Ensures .trying (Inventory.exposing name owner) c
      (c.Affords fun id m => c.Widens m ∧ IsOfKind .endpoint id m) := by
  refine bind (P := c.Affords fun merged m => c.Widens m ∧
    m.node? merged.1 = some (.endpoint name owner)) ?_ ?_ fun _ _ => id
  · refine mergeNode valid rfl (fun id own => ?_) (fun _ => trivial) (fun free id fresh => ?_)
      fun _ short row => ⟨⟨row, rfl⟩, short⟩
    · exact ⟨valid.widens, mem_keyed.mp own⟩
    · refine ⟨valid.widens_insert fresh (fun key own => ?_) (Or.inl rfl),
        c.insert_node?_self id _⟩
      cases own
      exact free
  · rintro ⟨id, isNew⟩ m ⟨widens, found⟩
    have target := widens.nodes owned
    have linked := linked_of_permits (e := ⟨id, .exposes, owner⟩) found target rfl
    refine leads_bind (Leads.call (q := .insertEdge ⟨id, .exposes, owner⟩)
      (congrArg some linked)) ?_
    refine pure ⟨widens.trans (widens.valid.widens_link (e := ⟨id, .exposes, owner⟩) found
      target rfl), ?_⟩
    exact ⟨_, found, rfl⟩

theorem upsertKnown (knows : c.Knows known) (widens : c.Widens m) (endpoint : EndpointRef) :
    Ensures .trying (Inventory.upsertEndpoint endpoint) m fun x m' =>
      m.Widens m' ∧ Meets (IsOfKind .endpoint) (endpoint.refusal? known) x m' := by
  rw [EndpointRef.refusal?]
  refine require (fun blank => ?_) fun named => ?_
  · rw [if_pos (by simpa using blank)]
    exact ⟨widens.valid.widens, rfl⟩
  · rw [if_neg (by simpa using named)]
    refine (findKnown knows widens (.component endpoint.component) nofun nofun _).bind ?_ ?_
    · rintro owner _ ⟨rfl, meets⟩
      obtain ⟨there, own⟩ := meets_ok.mp meets
      rw [there]
      have exposing := exposing_affords widens.valid endpoint.name (mem_keyed.mp own)
      refine ofStore ((atomically_affords exposing).mono fun x m' ⟨exposed, unchanged⟩ => ?_)
      cases x with
      | ok id => exact exposed
      | error error =>
          obtain rfl := unchanged error rfl
          obtain ⟨⟨row, rfl⟩, short⟩ := exposed
          exact ⟨widens.valid.widens, rfl, short⟩
    · rintro error _ ⟨rfl, meets⟩
      exact ⟨widens.valid.widens, meets_error.mpr (meets_error.mp meets)⟩

theorem linking_affords (valid : c.Valid) (caller : IsOfKind net.caller a c) {l : List NodeId}
    (callees : ∀ id ∈ l, IsOfKind net.caller id c) :
      Ensures .trying (Inventory.linking net a l) c
      (c.Affords fun _ m => c.ExtendedBy m) := by
  refine (ensureRecord (Q := c.Affords fun r m => c.ExtendedBy m ∧
    IsOfKind net.record.kind r m) valid
    caller (fun _ => trivial) (fun r records => ⟨.refl c, records.1⟩) (fun r fresh _ => ?_)
    fun short row => ⟨⟨row, rfl⟩, short⟩).bind ?_ fun _ _ => id
  · refine ⟨(insert_extendedBy fresh _).trans (link_extendedBy _), ?_⟩
    exact ⟨_, c.insert_node?_self r net.record, rfl⟩
  · rintro r m ⟨extended, record⟩
    have allowed : {t | t ∈ l} ⊆ m.allowed net.record.kind .callees := fun t mem =>
      ⟨net.caller, (callees t mem).extended extended, net.permits_callees⟩
    obtain ⟨added, leads⟩ := leads_linkAll record allowed
    exact leads_bind leads (pure (extended.trans (linkAll_extendedBy ..)))

theorem linkCallees (net : CallNetwork) (valid : c.Valid) (caller : IsOfKind net.caller a c)
    {l : List NodeId} (callees : ∀ id ∈ l, IsOfKind net.caller id c) :
    Ensures .trying (ImpactProgram.ofStore (Inventory.linkDependency net a l)) c fun x m =>
      c.ExtendedBy m ∧ (l = [] → m = c) ∧ Succeeds (fun _ _ => True) x m := by
  rw [Inventory.linkDependency]
  split
  · exact ofStore (pure ⟨.refl c, fun _ => rfl, trivial⟩)
  · rename_i some
    have nonempty (none : l = []) : False := some (List.isEmpty_iff.mpr none)
    have linking := linking_affords valid caller (l := NodeId.ascending l) fun id mem =>
      callees id (NodeId.mem_ascending.mp mem)
    refine ofStore (bind (atomically_affords linking) (fun _ m done => ?_) ?_)
    · exact pure ⟨done.1, fun none => absurd none nonempty, trivial⟩
    · rintro error m ⟨⟨⟨row, rfl⟩, short⟩, unchanged⟩
      obtain rfl := unchanged _ rfl
      exact ⟨.refl m, fun _ => rfl, rfl, short⟩

theorem mergeSystem (valid : c.Valid) (name : String) :
    Ensures .trying (ImpactProgram.ofStore (Inventory.mergedId (.system name))) c fun x m =>
      c.Widens m ∧ Succeeds (IsOfKind .system) x m := by
  refine ofStore (bind (P := fun x m => c.Widens m ∧
    Succeeds (IsOfKind .system) ((x.map Prod.fst).mapError ImpactError.store) m) ?_
      (fun _ _ merged => pure merged) fun _ _ => id)
  refine mergeNode valid rfl (fun id own => ⟨valid.widens, ⟨_, mem_keyed.mp own, rfl⟩⟩)
    (fun _ => trivial) (fun free id fresh => ⟨?_, ⟨_, c.insert_node?_self id _, rfl⟩⟩)
    fun _ short row => ⟨valid.widens, rfl, short⟩
  refine valid.widens_insert fresh (fun key own => ?_) (Or.inr rfl)
  cases own
  exact free

theorem composeKnown (knows : c.Knows known) (widens : c.Widens m) (system : IsOfKind .system a m)
    (part : Artifact) : Ensures .trying (Inventory.compose a part) m fun x m' =>
      m.Widens m' ∧ Meets (fun _ _ => True)
        (NodeKey.missing? known (.component part) (toString (NodeKey.component part))) x m' := by
  refine (findKnown knows widens (.component part) nofun nofun _).bind ?_ ?_
  · rintro id _ ⟨rfl, meets⟩
    obtain ⟨there, own⟩ := meets_ok.mp meets
    rw [there]
    obtain ⟨node, found, kind⟩ := system
    have target := mem_keyed.mp own
    have permitted : Relation.composedOf.permits node.kind NodeKind.component = true := kind ▸ rfl
    have linked := linked_of_permits (e := ⟨a, .composedOf, id⟩) found target permitted
    refine ofStore (of_leads (Leads.call (q := .insertEdge ⟨a, .composedOf, id⟩)
      (congrArg some linked)) ⟨?_, trivial⟩)
    exact widens.valid.widens_link (e := ⟨a, .composedOf, id⟩) found target permitted
  · rintro error _ ⟨rfl, meets⟩
    exact ⟨widens.valid.widens, meets_error.mpr (meets_error.mp meets)⟩

end Ensures

section Requests

variable {c : Contents} {known : NodeKey → Bool} (knows : c.Knows known) (valid : c.Valid)
include knows valid

theorem effort_calls {caller : String} (found : known (.symbol caller) = true) :
    BestEffort c ((Batch.calls caller).refusal? known) (IsOfKind .symbol) (IsOfKind .symbol)
      (ImpactProgram.findSymbol caller) (fun _ => ImpactProgram.findSymbol)
      (fun id ids => ImpactProgram.ofStore (Inventory.linkDependency .code id ids)) where
  opens := (Ensures.findSymbol knows valid.widens caller).mono fun x m ⟨widens, meets⟩ => by
    rw [NodeKey.missing?, if_pos found] at meets
    exact ⟨widens, meets⟩
  tries target _ widens _ := Ensures.findSymbol knows widens target
  closes widens caller callees := Ensures.linkCallees .code widens.valid caller callees
  head := IsOfKind.extended
  value := IsOfKind.extended

theorem effort_networkCalls {caller : EndpointRef} (named : caller.name ≠ "")
    (found : known (.component caller.component) = true) :
    BestEffort c ((Batch.networkCalls caller).refusal? known) (IsOfKind .endpoint)
      (IsOfKind .endpoint)
      (Inventory.upsertEndpoint caller) (fun _ => Inventory.upsertEndpoint)
      (fun id ids => ImpactProgram.ofStore (Inventory.linkDependency .network id ids)) where
  opens := (Ensures.upsertKnown knows valid.widens caller).mono fun x m ⟨widens, meets⟩ => by
    rw [EndpointRef.refusal?, if_neg (by simpa using named), NodeKey.missing?,
      if_pos found] at meets
    exact ⟨widens, meets⟩
  tries target _ widens _ := Ensures.upsertKnown knows widens target
  closes widens caller callees := Ensures.linkCallees .network widens.valid caller callees
  head := IsOfKind.extended
  value := IsOfKind.extended

theorem effort_system {name : String} (named : name ≠ "") :
    BestEffort c ((Batch.system name).refusal? known) (IsOfKind .system) (fun (_ : Bool) _ => True)
      (do
        ImpactProgram.require (!name.isEmpty) "system name must not be empty"
        ImpactProgram.ofStore (Inventory.mergedId (.system name)))
      Inventory.compose (fun system _ => pure system) where
  opens := .require (fun blank => absurd (by simpa using blank) named) fun _ =>
    Ensures.mergeSystem valid name
  tries target _ widens system := Ensures.composeKnown knows widens system target
  closes _ _ _ := .pure ⟨.refl _, fun _ => rfl, trivial⟩
  head := IsOfKind.extended
  value _ _ := trivial

end Requests

theorem addCalls_eq (caller : String) (callees : List String) :
    Inventory.addCalls caller callees = ImpactProgram.bestEffort (ImpactProgram.findSymbol caller)
      (Batch.describe (.calls caller)) (fun _ => ImpactProgram.findSymbol)
      (fun id ids => ImpactProgram.ofStore (Inventory.linkDependency .code id ids)) callees := rfl

theorem addNetworkCalls_eq (caller : EndpointRef) (callees : List EndpointRef) :
    Inventory.addNetworkCalls caller callees = ImpactProgram.bestEffort
      (Inventory.upsertEndpoint caller) (Batch.describe (.networkCalls caller))
      (fun _ => Inventory.upsertEndpoint)
      (fun id ids => ImpactProgram.ofStore (Inventory.linkDependency .network id ids)) callees :=
        rfl

theorem upsertSystem_eq (name : String) (parts : List Artifact) :
    Inventory.upsertSystem name parts = ImpactProgram.bestEffort
      (do
        ImpactProgram.require (!name.isEmpty) "system name must not be empty"
        ImpactProgram.ofStore (Inventory.mergedId (.system name)))
      (Batch.describe (.system name)) Inventory.compose (fun system _ => pure system) parts := by
  simp only [Inventory.upsertSystem, ImpactProgram.bestEffort, bind_assoc, pure_bind]
  rfl

namespace Medium

variable {medium : Medium} {s : medium.State}

/-- Whether a store finds a node with a key. -/
def finds (medium : Medium) (s : medium.State) (key : NodeKey) : Bool :=
  match (medium.store.call (.findNode key) s).1 with
  | .ok (some _) => true
  | _ => false

theorem knows_finds (sound : medium.view.sound s) :
    (medium.view.holds s).Knows (medium.finds s) := by
  intro key
  obtain ⟨answer, -, -⟩ := medium.faithful.call_of_determined (q := .findNode key) sound rfl
  rw [finds, answer]
  cases found : (medium.view.holds s).find? key with
  | some id => exact iff_of_true rfl ⟨id, (medium.valid_of_sound sound).find?_eq_some.mp found⟩
  | none =>
      exact iff_of_false Bool.false_ne_true
        (find?_eq_none.mp found ▸ Set.not_nonempty_empty)

theorem spares_findSymbol (identity : String) :
    Spares medium.store id (ImpactProgram.findSymbol identity) :=
  fun s _ => medium.shelters.reading (EachStep.findAs id _ _) s

theorem spares_compose (system : NodeId) (part : Artifact) :
    Spares medium.store id (Inventory.compose system part) :=
  medium.shelters.after_reading (.findAs id _ _) fun owner =>
    (medium.spares_call (.insertEdge ⟨system, .composedOf, owner⟩)).ofStore

/-- What a request with many targets leaves and answers. -/
theorem done_of_effort {α β γ τ : Type} {refusal : τ → Option ImpactError}
    {H : γ → Contents → Prop}
    {V : α → Contents → Prop} {opening : ImpactProgram γ}
    {act : γ → τ → ImpactProgram α}
    {closing : γ → List α → ImpactProgram β} {describe : τ → String} {f : β → Answer}
    {p : List τ → ImpactProgram Answer}
    (same : ∀ l, p l = f <$> ImpactProgram.bestEffort opening describe act closing l)
    (effort : BestEffort (medium.view.holds s) refusal H V opening act closing)
    (spares : ∀ head target, Spares medium.store id (act head target))
    (sound : medium.view.sound s)
    {targets : List τ} (enough : medium.Suffices (p targets).run s) :
    let whole := (p targets).run.run medium.store s
    whole.2 = ((p (BestEffort.accepted refusal targets)).run.run medium.store s).2 ∧
    (BestEffort.Reports targets.length (BestEffort.refused describe refusal targets) whole.1 ∨
      FailsWith (fun error => error.exhausted = true) whole.1 ∧
        (medium.view.holds whole.2).Exhausted) ∧
    (BestEffort.accepted refusal targets = [] → ∀ net : CallNetwork,
      (medium.view.holds whole.2).ofKind net.record.kind =
        (medium.view.holds s).ofKind net.record.kind) := by
  simp only [same, Program.run_map]
  rw [same, ExceptT.run_map, map_eq_pure_bind] at enough
  obtain ⟨enough, -⟩ := suffices_bind enough
  obtain ⟨reported, narrow⟩ := effort.reports.runs (medium.runs_tried _ sound enough).1
  refine ⟨effort.state_eq spares sound enough, ?_, fun none net => ?_⟩
  · exact reported.imp (BestEffort.Reports.map f) (And.imp_left failsWith_map.mpr)
  · refine (narrow none).ofKind ?_ ?_ <;> cases net <;> exact nofun

/-- In whatever state a store is, a request with many targets leaves the state that it would have
left without its bad targets. It fails exactly when there are bad targets, and then reports how many
targets there were and each bad one in the order of the request, unless identifiers have run out.
Without a good target no record of calls is made. -/
theorem refused_targets_only_reported (medium : Medium) {s : medium.State}
    (reached : medium.Reachable s) (batch : Batch) (targets : List batch.Target)
    (accepted : batch.Accepted (medium.finds s))
    (enough : medium.Suffices (batch.operation targets).perform.run s) :
    let refusal := batch.refusal? (medium.finds s)
    let good := BestEffort.accepted refusal targets
    let bad := BestEffort.refused batch.describe refusal targets
    let whole := (batch.operation targets).on medium.store s
    whole.2 = ((batch.operation good).on medium.store s).2 ∧
    ((∀ error, whole.1 = .error error ↔ bad ≠ [] ∧
      error = .partialFailure targets.length bad) ∨
      FailsWith (fun error => error.exhausted = true) whole.1 ∧
        (medium.view.holds whole.2).Exhausted) ∧
    (good = [] → ∀ net : CallNetwork, (medium.view.holds whole.2).ofKind net.record.kind =
      (medium.view.holds s).ofKind net.record.kind) := by
  have sound := reached.sound
  have knows := medium.knows_finds sound
  cases batch with
  | calls caller =>
      exact done_of_effort (fun l => congrArg (Answer.link <$> ·) (addCalls_eq caller l))
        (effort_calls knows reached.valid accepted) (fun _ => medium.spares_findSymbol) sound enough
  | networkCalls caller =>
      exact done_of_effort (fun l => congrArg (Answer.link <$> ·) (addNetworkCalls_eq caller l))
        (effort_networkCalls knows reached.valid accepted.1 accepted.2)
        (fun _ => medium.shelters.upsertEndpoint) sound enough
  | system name =>
      exact done_of_effort (fun l => congrArg (Answer.node <$> ·) (upsertSystem_eq name l))
        (effort_system knows reached.valid accepted) medium.spares_compose sound enough

/-- An endpoint calls another one, as is said twice, and three times what cannot be an endpoint. -/
theorem refused_targets_only_reported_of_calls :
    let web : Artifact := ⟨"web", "1.0"⟩
    let s := (database.store.control .begin
      (database.store.call (.insertNode (.component web)) database.initial).2).2
    let batch : Batch := .networkCalls ⟨web, "cart"⟩
    let targets : List EndpointRef :=
      [⟨⟨"ghost", "1"⟩, "x"⟩, ⟨web, "pay"⟩, ⟨web, ""⟩,
        ⟨⟨"ghost", "1"⟩, "x"⟩, ⟨web, "pay"⟩]
    let bad := BestEffort.refused batch.describe (batch.refusal? (database.finds s)) targets
    let whole := (batch.operation targets).on database.store s
    database.Reachable s ∧ batch.Accepted (database.finds s) ∧
      database.Suffices (batch.operation targets).perform.run s ∧
      bad.map Prod.fst =
        ["endpoint 'x' of ghost@1", "endpoint '' of web@1.0", "endpoint 'x' of ghost@1"] ∧
      whole.1 = .error (.partialFailure 5 bad) ∧
      whole.2 = ((batch.operation [⟨web, "pay"⟩, ⟨web, "pay"⟩]).on database.store s).2 := by
  intro web s batch targets bad whole
  have reached : database.Reachable s := .control _ (.call _ .start trivial)
  have accepted : batch.Accepted (database.finds s) := ⟨by decide, by decide +kernel⟩
  have named : bad.map Prod.fst =
      ["endpoint 'x' of ghost@1", "endpoint '' of web@1.0", "endpoint 'x' of ghost@1"] := by
    decide +kernel
  have good : BestEffort.accepted (batch.refusal? (database.finds s)) targets =
      [⟨web, "pay"⟩, ⟨web, "pay"⟩] := by decide +kernel
  have free : (database.view.holds whole.2).node? (NodeId.ofNat (NodeId.count - 1)) = none := by
    decide +kernel
  obtain ⟨same, reported, -⟩ :=
    refused_targets_only_reported database reached batch targets accepted trivial
  rw [good] at same
  have report := reported.resolve_right fun full => not_mem_live.mpr free full.2
  have some : bad ≠ [] := fun none => by
    rw [none] at named
    cases named
  exact ⟨reached, accepted, trivial, named, (report _).mpr ⟨some, rfl⟩, same⟩

/-- The symbol is there to call itself, but there is no identifier for the record of its calls. -/
theorem refused_targets_exhausted :
    let s := database.reached Operation.exhausting
    let batch : Batch := .calls "parse"
    database.Reachable s ∧ batch.Accepted (database.finds s) ∧
    BestEffort.refused batch.describe (batch.refusal? (database.finds s)) ["parse"] = [] ∧
    ((batch.operation ["parse"]).on database.store s).1 =
      .error (.store (.idOverflow NodeId.count)) := by
  refine ⟨reachable_exhausting, ?_⟩
  rw [reached_exhausting]
  refine ⟨?_, by decide +kernel, rfl⟩
  rw [Batch.Accepted]
  decide +kernel

end Medium

end BlastRadius
