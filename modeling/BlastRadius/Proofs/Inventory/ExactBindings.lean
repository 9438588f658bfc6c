import BlastRadius.Proofs.Impact.Atomicity
import BlastRadius.Proofs.Impact.Climbing
import BlastRadius.Proofs.Inventory.DistinctBindings

/-!
Recording a binding is exact: the answer is about the nodes that the request names and no others. A
binding about just these nodes is found whenever there is one, and then the store is left as it was;
a request that made one finds it the next time.
-/

namespace BlastRadius

theorem BindingRequest.mem_keys {request : BindingRequest} {key : NodeKey} :
    key ∈ request.keys ↔
    ∃ artifact, artifact.isBlank = false ∧
      (request.library = some artifact ∧ key = .library artifact ∨
        request.component = some artifact ∧ key = .component artifact ∨
        request.asset = some artifact ∧ key = .asset artifact) := by
  have part (given : Option Artifact) (make : Artifact → NodeKey) :
      some key = (given.filter fun artifact => !artifact.isBlank).map make ↔
        ∃ artifact, artifact.isBlank = false ∧ given = some artifact ∧
          key = make artifact := by
    rw [eq_comm, Option.map_eq_some_iff]
    simp only [Option.filter_eq_some_iff, Bool.not_eq_true']
    constructor
    · rintro ⟨artifact, ⟨given, full⟩, rfl⟩
      exact ⟨artifact, full, given, rfl⟩
    · rintro ⟨artifact, full, given, rfl⟩
      exact ⟨artifact, ⟨given, full⟩, rfl⟩
  simp only [keys, List.mem_filterMap, id, exists_eq_right, List.mem_cons, List.not_mem_nil,
    or_false, part, and_or_left, exists_or]

namespace Contents

variable {c c' : Contents} {request : BindingRequest} {b : NodeId}

/-- The nodes that the parts of a request name. A part that is blank names nothing. -/
def named (c : Contents) (request : BindingRequest) : Set NodeId :=
  {id | ∃ artifact, artifact.isBlank = false ∧
    (request.library = some artifact ∧ c.node? id = some (.library artifact) ∨
      request.component = some artifact ∧ c.node? id = some (.component artifact) ∨
      request.asset = some artifact ∧ c.node? id = some (.asset artifact))}

theorem requested_eq_named (c : Contents) (request : BindingRequest) :
    c.requested request = c.named request := by
  ext id
  simp only [requested, named, BindingRequest.mem_keys, mem_keyed, Set.mem_ofPred_eq]
  constructor
  · rintro ⟨_, ⟨artifact, full, ⟨given, rfl⟩ | ⟨given, rfl⟩ | ⟨given, rfl⟩⟩,
      found⟩
    · exact ⟨artifact, full, Or.inl ⟨given, found⟩⟩
    · exact ⟨artifact, full, Or.inr (Or.inl ⟨given, found⟩)⟩
    · exact ⟨artifact, full, Or.inr (Or.inr ⟨given, found⟩)⟩
  · rintro ⟨artifact, full, ⟨given, found⟩ | ⟨given, found⟩ | ⟨given, found⟩⟩
    · exact ⟨_, ⟨artifact, full, Or.inl ⟨given, rfl⟩⟩, found⟩
    · exact ⟨_, ⟨artifact, full, Or.inr (Or.inl ⟨given, rfl⟩)⟩, found⟩
    · exact ⟨_, ⟨artifact, full, Or.inr (Or.inr ⟨given, rfl⟩)⟩, found⟩

theorem named_inserted (fresh : c.node? b = none) (ids : Set NodeId) :
    ((c.insert b .binding).linkAll b .specializesInto ids).named request = c.named request := by
  rw [← requested_eq_named, ← requested_eq_named]
  ext id
  refine exists_congr fun key => and_congr_right fun _ => ?_
  change id ∈ (c.insert b .binding).keyed key ↔ _
  rw [mem_keyed_insert fresh]
  exact or_iff_left fun ⟨_, own⟩ => by cases own

theorem mem_ofKind_binding : b ∈ c.ofKind .binding ↔ c.node? b = some .binding := by
  constructor
  · rintro ⟨node, found, own⟩
    cases node <;> first | exact found | cases own
  · exact fun found => ⟨.binding, found, rfl⟩

/-- What a binding that answers a request says, and what the store holds afterwards. -/
structure RecordsBinding (c c' : Contents) (request : BindingRequest) (binding : Binding) :
    Prop where
  of_request : binding.request = request
  ascending : binding.targets.Pairwise (· < ·)
  targets : {t | t ∈ binding.targets} = c.named request
  own : c'.node? binding.id = some .binding
  exact : c'.targets binding.id .specializesInto = c.named request
  found : binding.created = false ↔
    ∃ b, c.node? b = some .binding ∧ c.targets b .specializesInto = c.named request
  unchanged : binding.created = false → c' = c
  added : binding.created = true → c.node? binding.id = none ∧
    c' = (c.insert binding.id .binding).linkAll binding.id .specializesInto (c.named request)

theorem bindingsOf_nonempty {ids : Set NodeId} : (c.bindingsOf ids).Nonempty ↔
    ∃ b, c.node? b = some .binding ∧ c.targets b .specializesInto = ids :=
  exists_congr fun _ => and_congr_left fun _ => mem_ofKind_binding

theorem records_found (least : IsLeast (c.bindingsOf (c.named request)) b) :
    c.RecordsBinding c request ⟨b, false, NodeId.listed (c.named request), request⟩ where
  of_request := rfl
  ascending := NodeId.listed_pairwise _
  targets := Set.ext fun _ => NodeId.mem_listed
  own := mem_ofKind_binding.mp least.1.1
  exact := least.1.2
  found := iff_of_true rfl (bindingsOf_nonempty.mp ⟨b, least.1⟩)
  unchanged _ := rfl
  added := nofun

theorem Valid.records_created (valid : c.Valid) (none : c.bindingsOf (c.named request) = ∅)
    (fresh : c.node? b = .none) :
    c.RecordsBinding ((c.insert b .binding).linkAll b .specializesInto (c.named request)) request
      ⟨b, true, NodeId.listed (c.named request), request⟩ where
  of_request := rfl
  ascending := NodeId.listed_pairwise _
  targets := Set.ext fun _ => NodeId.mem_listed
  own := insert_node?_self b .binding
  exact := (valid.targets_linked fresh .binding .specializesInto _ b).trans (if_pos rfl)
  found := iff_of_false Bool.noConfusion fun some =>
    (bindingsOf_nonempty.mpr some).ne_empty none
  unchanged := nofun
  added _ := ⟨fresh, rfl⟩

theorem Valid.bindingsOf_created (valid : c.Valid) (none : c.bindingsOf (c.named request) = ∅)
    (fresh : c.node? b = .none) :
    ((c.insert b .binding).linkAll b .specializesInto (c.named request)).bindingsOf
      (c.named request) =
      {b} := by
  have targets := valid.targets_linked fresh .binding .specializesInto (c.named request)
  ext other
  rw [Set.mem_singleton_iff]
  constructor
  · rintro ⟨own, same⟩
    by_contra distinct
    rw [targets other, if_neg distinct] at same
    have old : other ∈ c.ofKind .binding :=
      ((mem_ofKind_insert fresh).mp own).resolve_right fun ⟨same, _⟩ => distinct same
    exact Set.notMem_empty other (none ▸ ⟨old, same⟩)
  · rintro rfl
    exact ⟨⟨_, insert_node?_self other .binding, rfl⟩, (targets other).trans (if_pos rfl)⟩

end Contents

open Contents

variable {c c' : Contents} {request : BindingRequest} {b : NodeId}

theorem leads_createBinding_found (valid : c.Valid)
    (least : IsLeast (c.bindingsOf (c.named request)) b) :
    Leads (Operation.createBinding request).perform.run c
      (.ok (.binding ⟨b, false, NodeId.listed (c.named request), request⟩)) c := by
  rw [← requested_eq_named] at least ⊢
  exact (Leads.ofStore (leads_recording_found valid least).atomically).map Answer.binding

theorem createBinding_cases {x : Except ImpactError Answer} (valid : c.Valid)
    (ran : (Operation.createBinding request).perform.run.Runs Tried c x c') :
    (∃ b, IsLeast (c.bindingsOf (c.named request)) b ∧
      x = .ok (.binding ⟨b, false, NodeId.listed (c.named request), request⟩) ∧ c' = c) ∨
    c.bindingsOf (c.named request) = ∅ ∧
      ((∃ b, c.node? b = none ∧
        x = .ok (.binding ⟨b, true, NodeId.listed (c.named request), request⟩) ∧
        c' = (c.insert b .binding).linkAll b .specializesInto (c.named request)) ∨
      ∃ row, x = .error (.store (.idOverflow row)) ∧ c.Exhausted) := by
  obtain ⟨_, creating, rfl⟩ := runs_exceptT_map.mp ran
  obtain ⟨_, block, rfl⟩ := Program.runs_map.mp creating
  obtain ⟨m, recording, rfl⟩ := runs_storeAtomically.mp block
  rw [← requested_eq_named]
  rcases recording_cases valid recording with
    ⟨b, least, rfl, rfl⟩ | ⟨none, ⟨b, fresh, rfl, rfl⟩ | ⟨row, rfl, full, _⟩⟩
  · exact Or.inl ⟨b, least, rfl, rfl⟩
  · exact Or.inr ⟨none, Or.inl ⟨b, fresh, rfl, rfl⟩⟩
  · exact Or.inr ⟨none, Or.inr ⟨row, rfl, full⟩⟩

theorem Store.Shelters.recording_idle {σ τ : Type} {front : Store τ} {base : τ → σ}
    (shelters : front.Shelters base) (request : BindingRequest) :
    Leaves base (fun result => ∃ binding, result = .ok binding ∧ binding.created = false)
      ((Inventory.recording request).run.run front) := by
  apply shelters.after_reading (EachStep.composes.resolveTargets onlyReads_call request)
  intro targets
  apply shelters.after_reading (EachStep.composes.exactBinding onlyReads_call targets)
  rintro (_ | found)
  · rintro t ⟨binding, answer, found⟩
    rw [ExceptT.run_bind, Program.run_bind] at answer
    generalize ((Inventory.insertBinding targets).run.run front t).1 = inserted at answer
    rcases inserted with error | id
    · cases answer
    · cases answer
      cases found
  · exact fun _ _ => rfl

theorem Store.Shelters.createBinding_found {σ τ : Type} {front : Store τ} {base : τ → σ}
    (shelters : front.Shelters base) {t t' : τ} {binding : Binding} (old : binding.created = false)
    (ran : (Operation.createBinding request).on front t = (.ok (.binding binding), t')) :
    base t' = base t := by
  have block := shelters.atomically (shelters.recording_idle request) t
  change (Answer.binding <$> Inventory.createBinding request).run.run front t = _ at ran
  rw [Program.run_map, Inventory.createBinding, run_ofStore_atomically] at ran
  change (_, (front.atomically ((Inventory.recording request).run.run front) t).2) = _ at ran
  obtain ⟨answer, rfl⟩ := Prod.ext_iff.mp ran
  apply block
  intro value same
  change Except.map _ (Except.mapError _
    (front.atomically ((Inventory.recording request).run.run front) t).1) = _ at answer
  rw [same] at answer
  cases answer
  exact old

namespace Medium

variable {medium : Medium} {operations : List Operation}

/-- A request about whose nodes there is a binding is answered with it, and the
store stays as it is. -/
theorem createBinding_again {s : medium.State} (sound : medium.view.sound s)
    (least : IsLeast ((medium.view.holds s).bindingsOf ((medium.view.holds s).named request)) b) :
    (Operation.createBinding request).on medium.store s = (.ok (.binding
      ⟨b, false, NodeId.listed ((medium.view.holds s).named request), request⟩), s) := by
  obtain ⟨s', ran, _⟩ := medium.run_of_leads sound
    (leads_createBinding_found (medium.valid_of_sound sound) least)
  change (Operation.createBinding request).on medium.store s = _ at ran
  obtain rfl : s' = s := medium.shelters.createBinding_found rfl ran
  exact ran

/-- Recording a binding answers with the nodes that the request names, ascending, and with a binding
that is about exactly these. It is a new one, with one edge for each node, unless there is one
already; then nothing is changed. The same request at once finds it again. Only when identifiers
have run out and there is no such binding is there an error, which changes nothing. -/
theorem createBinding_exact (medium : Medium) {operations : List Operation}
    {request : BindingRequest}
    (fits : medium.Fits (operations ++ [.createBinding request])) :
    let operation : Operation := .createBinding request
    let before := medium.contents operations
    let s := medium.reached operations
    let s' := medium.reached (operations ++ [operation])
    (∃ binding, operation.on medium.store s = (.ok (.binding binding), s') ∧
      before.RecordsBinding (medium.contents (operations ++ [operation])) request binding ∧
      (binding.created = false → s' = s) ∧
      operation.on medium.store s' = (.ok (.binding { binding with created := false }), s')) ∨
    ∃ row, operation.on medium.store s = (.error (.store (.idOverflow row)), s) ∧
      before.Exhausted ∧ ∀ b, before.node? b = some .binding →
        before.targets b .specializesInto ≠ before.named request := by
  intro operation before s s'
  have sound : medium.view.sound s := reached_sound (fits.before (List.prefix_append _ _))
  obtain ⟨ran, sound'⟩ := performed fits sound
  have valid : before.Valid := medium.valid_of_sound sound
  have state : (operation.on medium.store s).2 = s' := (reached_append operations operation).symm
  rcases createBinding_cases valid ran with
    ⟨b, least, answer, _⟩ | ⟨none, ⟨b, fresh, answer, after⟩ | ⟨row, answer, full⟩⟩
  · have again := createBinding_again sound least
    have same : s' = s := by rw [← state, again]
    rw [contents, show medium.reached (operations ++ [operation]) = s from same, same]
    exact Or.inl ⟨_, again, records_found least, fun _ => rfl, again⟩
  · have records := valid.records_created none fresh
    have named : (medium.view.holds s').named request = before.named request := by
      rw [show medium.view.holds s' = _ from after]
      exact named_inserted fresh _
    have only :
        IsLeast ((medium.view.holds s').bindingsOf ((medium.view.holds s').named request)) b := by
      rw [named, show medium.view.holds s' = _ from after, valid.bindingsOf_created none fresh]
      exact isLeast_singleton
    have again := createBinding_again sound' only
    rw [named] at again
    rw [← after] at records
    exact Or.inl ⟨_, Prod.ext answer state, records, Bool.noConfusion, again⟩
  · have same : (operation.on medium.store s).2 = s :=
      Operation.failed_leaves medium.shelters rfl s answer
    refine Or.inr ⟨row, Prod.ext answer same, full, fun b own about => ?_⟩
    exact Set.notMem_empty b (none ▸ ⟨mem_ofKind_binding.mpr own, about⟩)

/-- The library was removed and recorded again, so that the binding from before is about nothing.
One part of the request is blank and one is unknown. -/
theorem createBinding_exact_after_removal :
    let library : Artifact := ⟨"parser", "1.0"⟩
    let request : BindingRequest :=
      { library := some library, component := some ⟨"", "1.0"⟩,
        asset := some ⟨"host", "1.0"⟩ }
    let operations : List Operation := [.upsertLibrary library [],
      .createBinding { library := some library }, .resetDomain .callGraph,
        .upsertLibrary library []]
    let operation : Operation := .createBinding request
    let s' := Medium.database.reached (operations ++ [operation])
    Medium.database.Fits (operations ++ [operation]) ∧
    operation.on Database.store (Medium.database.reached operations) =
      (.ok (.binding ⟨⟨4⟩, true, [⟨3⟩], request⟩), s') ∧
    (Medium.database.contents operations).RecordsBinding
      (Medium.database.contents (operations ++ [operation]))
      request ⟨⟨4⟩, true, [⟨3⟩], request⟩ ∧
    operation.on Database.store s' =
      (.ok (.binding ⟨⟨4⟩, false, [⟨3⟩], request⟩), s') := by
  intro library request operations operation s'
  have fits : Medium.database.Fits (operations ++ [operation]) := fun _ _ _ => trivial
  have answered : (operation.on Database.store (Medium.database.reached operations)).1.toOption =
      some (.binding ⟨⟨4⟩, true, [⟨3⟩], request⟩) := by decide +kernel
  rcases createBinding_exact .database fits with ⟨binding, ran, records, _, again⟩ |
    ⟨row, ran, _⟩
  · change operation.on Database.store _ = _ at ran
    rw [ran] at answered
    obtain rfl : binding = ⟨⟨4⟩, true, [⟨3⟩], request⟩ := by
      injection Option.some.inj answered
    exact ⟨fits, ran, records, again⟩
  · change operation.on Database.store _ = _ at ran
    rw [ran] at answered
    cases answered

/-- There is no binding yet and no identifier for one. -/
theorem createBinding_exhausted :
    let operation : Operation := .createBinding {}
    Medium.database.Fits (Operation.exhausting ++ [operation]) ∧
    operation.on Database.store (Medium.database.reached Operation.exhausting) =
      (.error (.store (.idOverflow NodeId.count)),
        Medium.database.reached Operation.exhausting) := by
  refine ⟨fun _ _ _ => trivial, ?_⟩
  rw [Medium.reached_exhausting]
  rfl

end Medium

end BlastRadius
