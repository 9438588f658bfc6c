import BlastRadius.Proofs.Impact.Interleavings
import BlastRadius.Proofs.Parity.Dependencies

/-!
Each caller has one record of its calls. The block that links a caller looks for its record first,
and a record that is inserted for a node of another kind is refused, which undoes the block. A
record has a caller and callees, until kinds of node are removed that do not belong together.
-/

namespace BlastRadius

/-- A call that inserts no record, links none to a caller and removes nothing. -/
def Call.unrecorded : Call → Bool
  | insertNode node => node.kind != .callGraphDependency && node.kind != .interComponentDependency
  | insertEdge e => e.relation != .caller
  | removeKind _ | reset => false
  | _ => true

namespace Contents

variable {c c' : Contents} {q : Call} {net : CallNetwork} {a r : NodeId} {ids : Set NodeId}

/-- Each caller has at most one record, and each record at most one caller. -/
structure Recorded (c : Contents) : Prop where
  valid : c.Valid
  records : ∀ a, (c.sources a .caller).Subsingleton
  callers : ∀ r, (c.targets r .caller).Subsingleton

/-- Each record moreover has a caller and callees. -/
structure Complete (c : Contents) : Prop extends Recorded c where
  caller (net : CallNetwork) : ∀ r ∈ c.ofKind net.record.kind, (c.targets r .caller).Nonempty
  callees (net : CallNetwork) : ∀ r ∈ c.ofKind net.record.kind, (c.targets r .callees).Nonempty

/-- Callers still have one record each, if they had. -/
def RecordsStay (c c' : Contents) : Prop := c.Recorded → c'.Recorded

/-- Records still have callers and callees, if they had. -/
def CompleteStay (c c' : Contents) : Prop := c.Complete → c'.Complete

theorem Recorded.of_fewer (recorded : c.Recorded) (valid : c'.Valid)
    (fewer : ∀ {r a}, ⟨r, .caller, a⟩ ∈ c'.edges → ⟨r, .caller, a⟩ ∈ c.edges) :
      c'.Recorded where
  valid := valid
  records a := (recorded.records a).anti fun _ => fewer
  callers r := (recorded.callers r).anti fun _ => fewer

theorem empty_recorded : empty.Recorded where
  valid := empty_valid
  records _ _ edge := absurd edge (Set.notMem_empty _)
  callers _ _ edge := absurd edge (Set.notMem_empty _)

theorem empty_complete : empty.Complete where
  toRecorded := empty_recorded
  caller _ _ := fun ⟨_, found, _⟩ => by cases found
  callees _ _ := fun ⟨_, found, _⟩ => by cases found

theorem Change.recorded (change : c.Change q c')
    (other : ∀ e, q = .insertEdge e → e.relation ≠ .caller)
    (recorded : c.Recorded) : c'.Recorded := by
  refine recorded.of_fewer (change.valid recorded.valid) fun {r a} edge => ?_
  cases change with
  | edge =>
      rcases edge with rfl | edge
      · exact absurd rfl (other _ rfl)
      · exact edge
  | removal kind => exact edge.1
  | reset => cases edge
  | _ => exact edge

theorem Change.recorded_of_unrecorded (change : c.Change q c') (unrecorded : q.unrecorded = true)
    (recorded : c.Recorded) : c'.Recorded := by
  refine change.recorded ?_ recorded
  rintro e rfl
  simpa [Call.unrecorded] using unrecorded

theorem Complete.of_more (complete : c.Complete) (recorded : c'.Recorded)
    (records : ∀ net : CallNetwork, c'.ofKind net.record.kind ⊆ c.ofKind net.record.kind)
    (edges : c.edges ⊆ c'.edges) : c'.Complete where
  toRecorded := recorded
  caller net r own := (complete.caller net r (records net own)).mono fun _ edge => edges edge
  callees net r own := (complete.callees net r (records net own)).mono fun _ edge => edges edge

theorem Change.complete (change : c.Change q c') (unrecorded : q.unrecorded = true)
    (complete : c.Complete) : c'.Complete := by
  have recorded := change.recorded_of_unrecorded unrecorded complete.toRecorded
  cases change with
  | none => exact complete
  | @node id node fresh free =>
      refine complete.of_more recorded (fun net r own => ?_) subset_rfl
      refine ((mem_ofKind_insert fresh).mp own).resolve_right fun ⟨_, kind⟩ => ?_
      simp only [Call.unrecorded, kind] at unrecorded
      cases net <;> cases unrecorded
  | edge => exact complete.of_more recorded (fun _ => subset_rfl) fun _ => Or.inr
  | mark => exact complete.of_more recorded (fun _ => subset_rfl) subset_rfl
  | unmark => exact complete.of_more recorded (fun _ => subset_rfl) subset_rfl
  | removal kind => cases unrecorded
  | reset => cases unrecorded

/-- Records stay complete when they go with their callers. -/
theorem Complete.withoutAll (complete : c.Complete) {kinds : List NodeKind}
    (together : ∀ net : CallNetwork, net.record.kind ∉ kinds → net.caller ∉ kinds) :
    (c.withoutAll kinds).Complete := by
  have recorded : (c.withoutAll kinds).Recorded :=
    complete.of_fewer (complete.valid.withoutAll kinds) fun edge => withoutAll_edges kinds edge
  have left {net : CallNetwork} {relation : Relation} {r t : NodeId}
      (own : r ∈ (c.withoutAll kinds).ofKind net.record.kind)
      (edge : ⟨r, relation, t⟩ ∈ c.edges)
      (target : t ∈ c.ofKind net.caller) :
      ⟨r, relation, t⟩ ∈ (c.withoutAll kinds).edges := by
    obtain ⟨own, spared⟩ := mem_withoutAll_ofKind.mp own
    refine mem_withoutAll_edges.mpr ⟨edge, fun kind mem => ⟨fun same => ?_, fun same => ?_⟩⟩
    · exact spared (ofKind_eq own same ▸ mem)
    · exact together net spared (ofKind_eq target same ▸ mem)
  have target {net : CallNetwork} {relation : Relation} {r t : NodeId}
      (calls : relation = .caller ∨ relation = .callees) (own : r ∈ c.ofKind net.record.kind)
      (edge : ⟨r, relation, t⟩ ∈ c.edges) : t ∈ c.ofKind net.caller := by
    obtain ⟨kind, kind', source, target, permitted⟩ := complete.valid.kinds edge
    have schema : ∀ p ∈ Relation.permitted, p.1 = .caller ∨ p.1 = .callees →
        p.2.1 = net.record.kind → p.2.2 = net.caller := by
      cases net <;> decide
    exact schema _ permitted calls (ofKind_eq source own) ▸ target
  refine ⟨recorded, fun net r own => ?_, fun net r own => ?_⟩
  · obtain ⟨t, edge⟩ := complete.caller net r (mem_withoutAll_ofKind.mp own).1
    exact ⟨t, left own edge (target (Or.inl rfl) (mem_withoutAll_ofKind.mp own).1 edge)⟩
  · obtain ⟨t, edge⟩ := complete.callees net r (mem_withoutAll_ofKind.mp own).1
    exact ⟨t, left own edge (target (Or.inr rfl) (mem_withoutAll_ofKind.mp own).1 edge)⟩

theorem ofKind_of_permits {target : Node} (fresh : c.node? r = none)
    (found : (c.insert r net.record).node? a = some target)
    (permitted : Relation.caller.permits net.record.kind target.kind = true) :
    a ∈ c.ofKind net.caller := by
  have kind : target.kind = net.caller := by
    have schema : ∀ p ∈ Relation.permitted, p.1 = .caller → p.2.1 = net.record.kind →
        p.2.2 = net.caller := by
      cases net <;> decide
    exact schema _ (Relation.mem_permitted permitted) rfl rfl
  have own : a ∈ (c.insert r net.record).ofKind net.caller := ⟨target, found, kind⟩
  refine ((mem_ofKind_insert fresh).mp own).resolve_right ?_
  cases net <;> exact fun new => NodeKind.noConfusion new.2

def record (c : Contents) (net : CallNetwork) (r a : NodeId) : Contents :=
  (c.insert r net.record).link ⟨r, .caller, a⟩

theorem ensured_cases (valid : c.Valid) {x : Except StoreError NodeId}
    (ran : (Inventory.ensureDependency net a).run.Runs Tried c x c') :
    (∃ r, x = .ok r ∧ (c' = c ∨
      c.node? r = none ∧ c.sources a .caller = ∅ ∧ c' = c.record net r a) ∧ c'.Valid) ∨
    ∃ error, x = .error error := by
  obtain ⟨found, m, looking, ran⟩ := runs_exceptT_bind.mp ran
  obtain rfl : c = m := Program.Keeps.runs (fun _ => rfl) Eq.trans
    (keeps_existingDependency (fun _ => rfl) net a) looking
  rcases found with error | _ | r
  · exact Or.inr ⟨error, ran.1⟩
  · obtain ⟨inserted, m₁, insertion, rest⟩ := runs_exceptT_bind.mp ran
    rcases (runs_storeCall.mp insertion).inserted with ⟨r, fresh, free, rfl, rfl⟩ |
      ⟨error, rfl, rfl⟩
    · obtain ⟨added, m₂, linking, rest⟩ := runs_exceptT_bind.mp rest
      have linked := (runs_storeCall.mp linking).linked
      rcases linked_cases ⟨r, .caller, a⟩ with ⟨_, target, hs, ht, permitted, same⟩ |
        ⟨error, same⟩
      · cases same.symm.trans linked
        obtain ⟨rfl, rfl⟩ := rest
        cases (insert_node?_self r net.record).symm.trans hs
        have own := ofKind_of_permits fresh ht permitted
        have none : NodeId.listed (c.sources a .caller) = [] := by
          have looked := ((reads_existingDependency valid own).unique_of_tried looking).1
          exact List.head?_eq_none_iff.mp (Except.ok.inj looked).symm
        exact Or.inl ⟨r, rfl, Or.inr ⟨fresh, NodeId.listed_eq_nil.mp none, rfl⟩,
          (valid.insert fresh free).link (insert_node?_self r net.record) ht permitted⟩
      · cases same.symm.trans linked
        exact Or.inr ⟨error, rest.1⟩
    · exact Or.inr ⟨error, rest.1⟩
  · obtain ⟨rfl, rfl⟩ := ran
    exact Or.inl ⟨r, rfl, Or.inl rfl, valid⟩

theorem linkedAll_cases {source : NodeId} {relation : Relation} {l : List NodeId} (valid : c.Valid)
    {x : Except StoreError (List Bool)}
    (ran : (StoreProgram.each (fun t => StoreProgram.call (.insertEdge ⟨source, relation, t⟩))
      l).run.Runs Tried c x c') :
    (∃ added, x = .ok added ∧ c' = c.linkAll source relation {t | t ∈ l} ∧ c'.Valid) ∨
    ∃ error, x = .error error := by
  induction l generalizing c c' x with
  | nil =>
      obtain ⟨rfl, rfl⟩ := ran
      exact Or.inl ⟨[], rfl, by simp [linkAll_empty], valid⟩
  | cons t rest ih =>
      obtain ⟨first, m, insertion, ran⟩ := runs_exceptT_bind.mp ran
      have linked := (runs_storeCall.mp insertion).linked
      rcases linked_cases ⟨source, relation, t⟩ with
        ⟨_, _, hs, ht, permitted, same⟩ | ⟨error, same⟩
      · cases same.symm.trans linked
        obtain ⟨others, m, linking, ran⟩ := runs_exceptT_bind.mp ran
        rcases ih (valid.link hs ht permitted) linking with ⟨added, rfl, rfl, valid'⟩ |
          ⟨error, rfl⟩
        · obtain ⟨rfl, rfl⟩ := ran
          refine Or.inl ⟨_, rfl, ?_, valid'⟩
          rw [linkAll_link]
          exact congrArg (c.linkAll source relation) (Set.ext fun u => by simp [Set.insert])
        · exact Or.inr ⟨error, ran.1⟩
      · cases same.symm.trans linked
        exact Or.inr ⟨error, ran.1⟩

theorem linking_cases (valid : c.Valid) {callees : List NodeId} {x : Except StoreError NodeId}
    (ran : (Inventory.linking net a callees).run.Runs Tried c x c') :
    (∃ r m, x = .ok r ∧
      (m = c ∨ c.node? r = none ∧ c.sources a .caller = ∅ ∧ m = c.record net r a) ∧
        m.Valid ∧
      c' = m.linkAll r .callees {t | t ∈ callees} ∧ c'.Valid) ∨
    ∃ error, x = .error error := by
  obtain ⟨ensured, m, ensuring, ran⟩ := runs_exceptT_bind.mp ran
  rcases ensured_cases valid ensuring with ⟨r, rfl, found, valid'⟩ | ⟨error, rfl⟩
  · obtain ⟨added, m', linking, rest⟩ := runs_exceptT_bind.mp ran
    rcases linkedAll_cases valid' linking with ⟨_, rfl, rfl, valid''⟩ | ⟨error, rfl⟩
    · obtain ⟨rfl, rfl⟩ := rest
      exact Or.inl ⟨r, m, rfl, found, valid', rfl, valid''⟩
    · exact Or.inr ⟨error, rest.1⟩
  · exact Or.inr ⟨error, ran.1⟩

theorem Recorded.record (recorded : c.Recorded) (fresh : c.node? r = none)
    (none : c.sources a .caller = ∅) (valid : (c.record net r a).Valid) :
    (c.record net r a).Recorded where
  valid := valid
  records b s left s' right := by
    have bare (t : NodeId) : ⟨t, .caller, a⟩ ∉ c.edges :=
      fun edge => Set.notMem_empty t (none ▸ edge)
    rcases left with new | old <;> rcases right with new' | old'
    · cases new
      cases new'
      rfl
    · cases new
      exact absurd old' (bare s')
    · cases new'
      exact absurd old (bare s)
    · exact recorded.records b old old'
  callers s b left b' right := by
    have unused (t : NodeId) : ⟨r, .caller, t⟩ ∉ c.edges := fun edge =>
      not_mem_live.mpr fresh (recorded.valid.source_live edge)
    rcases left with new | old <;> rcases right with new' | old'
    · cases new
      cases new'
      rfl
    · cases new
      exact absurd old' (unused b')
    · cases new'
      exact absurd old (unused b)
    · exact recorded.callers s old old'

theorem Recorded.linked (recorded : c.Recorded) (valid : (c.linkAll r .callees ids).Valid) :
    (c.linkAll r .callees ids).Recorded := by
  refine recorded.of_fewer valid fun {s b} edge => ?_
  rcases edge with old | ⟨_, same, _⟩
  · exact old
  · cases same

theorem Complete.record (complete : c.Complete) (fresh : c.node? r = none)
    (recorded : ((c.record net r a).linkAll r .callees ids).Recorded) (some : ids.Nonempty) :
    ((c.record net r a).linkAll r .callees ids).Complete := by
  have records {other : CallNetwork} {s : NodeId}
      (own : s ∈ ((c.record net r a).linkAll r .callees ids).ofKind other.record.kind) :
      s ∈ c.ofKind other.record.kind ∨ s = r :=
    ((mem_ofKind_insert fresh).mp own).imp_right And.left
  refine ⟨recorded, fun other s own => ?_, fun other s own => ?_⟩
  · rcases records own with old | rfl
    · exact (complete.caller other s old).mono fun _ edge => Or.inl (Or.inr edge)
    · exact ⟨a, Or.inl (Or.inl rfl)⟩
  · rcases records own with old | rfl
    · exact (complete.callees other s old).mono fun _ edge => Or.inl (Or.inr edge)
    · exact some.imp fun t mem => Or.inr ⟨rfl, rfl, mem⟩

end Contents

open Contents

theorem linking_recordsStay (net : CallNetwork) (caller : NodeId) (callees : List NodeId) :
    KeepsBlock RecordsStay (Inventory.linking net caller callees) := by
  intro c x c' ran recorded
  rcases linking_cases recorded.valid ran with
    ⟨r, m, rfl, rfl | ⟨fresh, none, rfl⟩, valid, rfl, valid'⟩ | ⟨error, rfl⟩
  · exact recorded.linked valid'
  · exact (recorded.record fresh none valid).linked valid'
  · exact recorded

theorem linking_completeStay (net : CallNetwork) (caller : NodeId) {callees : List NodeId}
    (some : callees ≠ []) : KeepsBlock CompleteStay (Inventory.linking net caller callees) := by
  intro c x c' ran complete
  have recorded' := linking_recordsStay net caller callees c x c' ran complete.toRecorded
  rcases linking_cases complete.valid ran with
    ⟨r, m, rfl, rfl | ⟨fresh, none, rfl⟩, valid, rfl, valid'⟩ | ⟨error, rfl⟩
  · exact complete.of_more recorded' (fun _ => subset_rfl) fun _ => Or.inl
  · exact complete.record fresh recorded' (List.exists_mem_of_ne_nil callees some)
  · exact complete

/-- What calls about other things keep is kept by operations that remove nothing, if it is kept by
the block that links a caller. -/
theorem allows_of_unrecorded {R : Contents → Contents → Prop} (refl : ∀ c, R c c)
    (trans : ∀ {a b c}, R a b → R b c → R a c)
    (change : ∀ {q : Call} {c c'}, q.unrecorded = true → c.Change q c' → R c c')
    (linking : ∀ net caller {callees : List NodeId}, callees ≠ [] →
      KeepsBlock R (Inventory.linking net caller callees)) :
    AllowsOperations (CallKeeps Tried R) (BlockKeeps Tried R) := by
  have call {q : Call} (unrecorded : q.unrecorded = true) : CallKeeps Tried R q :=
    fun _ _ _ tried => change unrecorded tried.change
  have keeps {q : Call} (unrecorded : q.unrecorded = true) : Keeps R (StoreProgram.call q) :=
    .call (call unrecorded)
  refine
    { call := fun {q} marks => call ?_, node := fun {node} single => call ?_
      edge := fun {e} single => call ?_, linking := linking
      seeding := fun _ => keeps_seeding refl trans (keeps rfl) fun _ => keeps rfl
      providing := fun _ _ => keeps_providing refl trans (fun _ => keeps rfl) (fun _ => keeps rfl)
        fun _ _ => keeps rfl
      exposing := fun _ _ => keeps_exposing refl trans (keeps rfl) fun _ => keeps rfl
      recording := fun _ => keeps_recording refl trans (keeps rfl) fun _ _ => keeps rfl
      registering := fun _ _ => keeps_registering refl trans (fun _ => keeps rfl) (keeps rfl)
        fun _ _ => keeps rfl }
  · cases q <;> first | rfl | cases marks
  · cases node <;> first | rfl | cases single
  · obtain ⟨source, relation, target⟩ := e
    cases relation <;> first | rfl | cases single

theorem keeps_records (operation : Operation) : Keeps RecordsStay operation.perform := by
  have allows : AllowsOperations (CallKeeps Tried RecordsStay) (BlockKeeps Tried RecordsStay) :=
    allows_of_unrecorded (fun _ => id) (fun first second => second ∘ first)
      (fun unrecorded change => change.recorded_of_unrecorded unrecorded)
      fun net caller {callees} _ => linking_recordsStay net caller callees
  refine allows.perform operation (keepsBlock_removing fun c recorded => ?_) fun _ _ _ _ tried =>
    tried.change.recorded nofun
  exact recorded.of_fewer (recorded.valid.withoutAll _) fun edge => withoutAll_edges _ edge

theorem Operation.removed_with_records {operation : Operation}
    (whole : ∀ kinds, operation ≠ .resetKinds kinds) (net : CallNetwork)
    (kept : net.record.kind ∉ operation.removed) : net.caller ∉ operation.removed := by
  cases operation with
  | resetKinds kinds => exact absurd rfl (whole kinds)
  | resetDomain domain => cases domain <;> cases net <;> revert kept <;> decide
  | reset => cases net <;> exact absurd (by decide) kept
  | _ => exact List.not_mem_nil

theorem keeps_complete {operation : Operation}
    (whole : ∀ kinds, operation ≠ .resetKinds kinds) :
    Keeps CompleteStay operation.perform := by
  have allows : AllowsOperations (CallKeeps Tried CompleteStay) (BlockKeeps Tried CompleteStay) :=
    allows_of_unrecorded (fun _ => id) (fun first second => second ∘ first)
      (fun unrecorded change => change.complete unrecorded) linking_completeStay
  refine allows.perform operation (keepsBlock_removing fun c complete => ?_) ?_
  · exact complete.withoutAll (Operation.removed_with_records whole)
  · rintro - c r c' tried complete
    cases tried.change with
    | none => exact complete
    | reset => exact empty_complete

namespace Medium

theorem contents_recorded {medium : Medium} {operations : List Operation}
    (fits : medium.Fits operations) : (medium.contents operations).Recorded :=
  contents_invariant empty_recorded keeps_records fits

/-- While clients perform operations, in any order of their steps, each caller has at most one
record of its network, and each record at most one caller. If kinds of node are removed only as
domains or all together, each record has one caller and some callees. -/
theorem one_record_per_caller (medium : Medium) {ι : Type} [DecidableEq ι]
    {operations : ι → List Operation} {turns : List ι}
    (serves : medium.Serves (medium.performing operations) turns) (net : CallNetwork) :
    let held := medium.heldAmid operations turns
    (∀ a ∈ held.ofKind net.caller,
      (held.sources a .caller ∩ held.ofKind net.record.kind).Subsingleton) ∧
    (∀ r ∈ held.ofKind net.record.kind, (held.targets r .caller).Subsingleton) ∧
    ((∀ i kinds, .resetKinds kinds ∉ operations i) → ∀ r ∈ held.ofKind net.record.kind,
      (∃ a, held.targets r .caller = {a}) ∧ (held.targets r .callees).Nonempty) := by
  intro held
  have recorded : held.Recorded :=
    heldAmid_invariant empty_recorded (fun i operation _ => keeps_records operation) serves
  refine ⟨fun a _ => (recorded.records a).anti Set.inter_subset_left, fun r _ =>
    recorded.callers r,
    fun whole r own => ?_⟩
  have complete : held.Complete := by
    refine heldAmid_invariant empty_complete (fun i operation mem => ?_) serves
    exact keeps_complete fun kinds same => whole i kinds (same ▸ mem)
  obtain ⟨a, edge⟩ := complete.caller net r own
  exact ⟨⟨a, (recorded.callers r).eq_singleton_of_mem edge⟩, complete.callees net r own⟩

/-- Two clients look up the same caller before either links it, and the topology is
removed in between. -/
theorem one_record_per_caller_of_two :
    let operations : Fin 3 → List Operation := fun
      | 0 => [.upsertLibrary ⟨"parser", "1.0"⟩ ["parse", "print"], .addCalls "parse" ["print"]]
      | 1 => [.addCalls "parse" ["parse"]]
      | 2 => [.resetDomain .topology]
    let turns : List (Fin 3) := [0, 0, 1, 1, 0, 1, 2, 0]
    let held := Medium.database.heldAmid operations turns
    Medium.database.Serves (Medium.database.performing operations) turns ∧
    (∀ i kinds, .resetKinds kinds ∉ operations i) ∧
    held.node? ⟨2⟩ = some (.symbol "parse") ∧
      held.node? ⟨4⟩ = some .callGraphDependency ∧
    (held.sources ⟨2⟩ .caller ∩ held.ofKind .callGraphDependency).Subsingleton ∧
    (∃ a, held.targets ⟨4⟩ .caller = {a}) ∧ (held.targets ⟨4⟩ .callees).Nonempty := by
  intro operations turns held
  have serves : Medium.database.Serves (Medium.database.performing operations) turns :=
    fun _ _ _ => trivial
  have whole : ∀ i kinds, .resetKinds kinds ∉ operations i := by
    intro i kinds
    match i with
    | 0 | 1 | 2 => simp [operations]
  have caller : held.node? ⟨2⟩ = some (.symbol "parse") := by decide +kernel
  have record : held.node? ⟨4⟩ = some .callGraphDependency := by decide +kernel
  obtain ⟨records, -, complete⟩ := one_record_per_caller .database serves .code
  exact ⟨serves, whole, caller, record, records ⟨2⟩ ⟨_, caller, rfl⟩,
    complete whole ⟨4⟩ ⟨_, record, rfl⟩⟩

end Medium

end BlastRadius
