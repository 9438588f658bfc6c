import BlastRadius.Proofs.Impact.Capacity
import BlastRadius.Proofs.Impact.Climbing
import BlastRadius.Proofs.Store.UniqueKeys

/-!
Removing kinds of node. What is left are the nodes of other kinds as they were, with the edges
between them, and the keys of the removed nodes may be used again.
-/

namespace BlastRadius

/-- There are the nodes of kinds that are not gone, as before, and the edges between them. -/
structure Contents.LeftBy (c : Contents) (gone : NodeKind → Prop) (c' : Contents) : Prop where
  nodes (id : NodeId) (node : Node) :
    c'.node? id = some node ↔ c.node? id = some node ∧ ¬ gone node.kind
  marks (id : NodeId) : id ∈ c'.marked ↔ id ∈ c.marked ∧ id ∈ c'.live
  edges (e : Edge) : e ∈ c'.edges ↔ e ∈ c.edges ∧ e.source ∈ c'.live ∧
    e.target ∈ c'.live

/-- The nodes of some kinds were removed one kind after the other. An entry counts the nodes of its
kind, unless they had been removed before. -/
structure Contents.CountedBy (c : Contents) (removal : RemovedNodes) (kinds : List NodeKind)
    (c' : Contents) : Prop where
  order : removal.removed.map Prod.fst = kinds
  count {earlier later : List (NodeKind × Nat)} {kind : NodeKind} {n : Nat} :
    removal.removed = earlier ++ (kind, n) :: later →
      n = {id ∈ c.ofKind kind | kind ∉ earlier.map Prod.fst}.ncard
  total : removal.total + c'.live.ncard = c.live.ncard

namespace Contents

variable {c : Contents}

theorem mem_withoutAll_marked {kinds : List NodeKind} {id : NodeId} :
    id ∈ (c.withoutAll kinds).marked ↔ id ∈ c.marked ∧
      ∀ kind ∈ kinds, id ∉ c.ofKind kind := by
  induction kinds generalizing c with
  | nil => simp [withoutAll]
  | cons kind rest ih =>
      change id ∈ ((c.without kind).withoutAll rest).marked ↔ _
      rw [ih, List.forall_mem_cons]
      constructor
      · rintro ⟨⟨marked, first⟩, others⟩
        refine ⟨marked, first, fun other among own => ?_⟩
        by_cases same : other = kind
        · exact first (same ▸ own)
        · exact others other among (mem_without_ofKind.mpr ⟨own, same⟩)
      · rintro ⟨marked, first, others⟩
        exact ⟨⟨marked, first⟩, fun other among own =>
          others other among (mem_without_ofKind.mp own).1⟩

theorem mem_withoutAll_live {kinds : List NodeKind} {id : NodeId} :
    id ∈ (c.withoutAll kinds).live ↔ id ∈ c.live ∧
      ∀ kind ∈ kinds, id ∉ c.ofKind kind := by
  constructor
  · rintro ⟨node, found⟩
    obtain ⟨found, stays⟩ := withoutAll_node?.mp found
    refine ⟨⟨node, found⟩, fun kind among own => stays ?_⟩
    rwa [(mem_ofKind found).mp own]
  · rintro ⟨⟨node, found⟩, none⟩
    exact ⟨node, withoutAll_node?.mpr ⟨found, fun among =>
      none _ among ⟨node, found, rfl⟩⟩⟩

theorem Valid.withoutAll_leftBy (valid : c.Valid) (kinds : List NodeKind) :
    c.LeftBy (· ∈ kinds) (c.withoutAll kinds) where
  nodes _ _ := withoutAll_node?
  marks id := by
    rw [mem_withoutAll_marked, mem_withoutAll_live]
    exact ⟨fun ⟨marked, stays⟩ => ⟨marked, valid.marked_live marked, stays⟩,
      fun ⟨marked, _, stays⟩ => ⟨marked, stays⟩⟩
  edges e := by
    rw [mem_withoutAll_edges, mem_withoutAll_live, mem_withoutAll_live]
    constructor
    · rintro ⟨mem, none⟩
      exact ⟨mem, ⟨valid.source_live mem, fun kind among => (none kind among).1⟩,
        valid.target_live mem, fun kind among => (none kind among).2⟩
    · rintro ⟨mem, ⟨-, source⟩, -, target⟩
      exact ⟨mem, fun kind among => ⟨source kind among, target kind among⟩⟩

theorem LeftBy.unkeyed {gone : NodeKind → Prop} {c' : Contents} (left : c.LeftBy gone c')
    {id : NodeId}
    {node : Node} {key : NodeKey} (found : c.node? id = some node) (missing : c'.node? id = none)
    (own : node.key? = some key) : c'.keyed key = ∅ := by
  refine Set.eq_empty_iff_forall_notMem.mpr ?_
  rintro other ⟨same, found', own'⟩
  obtain rfl : same = node := (Node.eq_of_key? own').trans (Node.eq_of_key? own).symm
  have stays := ((left.nodes other same).mp found').2
  rw [(left.nodes id same).mpr ⟨found, stays⟩] at missing
  cases missing

theorem map_fst_removals (kinds : List NodeKind) : (removals kinds c).map Prod.fst = kinds := by
  induction kinds generalizing c with
  | nil => rfl
  | cons kind rest ih => exact congrArg (kind :: ·) ih

theorem count_removals {kinds : List NodeKind} {earlier later : List (NodeKind × Nat)}
    {kind : NodeKind} {n : Nat} (split : removals kinds c = earlier ++ (kind, n) :: later) :
    n = ((c.withoutAll (earlier.map Prod.fst)).ofKind kind).ncard := by
  induction earlier generalizing c kinds with
  | nil =>
      obtain _ | ⟨first, rest⟩ := kinds
      · cases split
      · cases split
        rfl
  | cons entry earlier ih =>
      obtain _ | ⟨first, rest⟩ := kinds
      · cases split
      · obtain ⟨rfl, others⟩ := List.cons.inj split
        exact ih others

theorem live_without (kind : NodeKind) : (c.without kind).live = c.live \ c.ofKind kind := by
  ext id
  change id ∈ (c.withoutAll [kind]).live ↔ _
  rw [mem_withoutAll_live, List.forall_mem_singleton]
  rfl

/-- What is removed and what is left are all the nodes. -/
theorem total_removals (kinds : List NodeKind) :
    RemovedNodes.total ⟨removals kinds c⟩ + (c.withoutAll kinds).live.ncard = c.live.ncard := by
  induction kinds generalizing c with
  | nil => exact Nat.zero_add _
  | cons kind rest ih =>
      change (c.ofKind kind).ncard + RemovedNodes.total ⟨removals rest (c.without kind)⟩ +
        ((c.without kind).withoutAll rest).live.ncard = c.live.ncard
      rw [Nat.add_assoc, ih, live_without, Nat.add_comm]
      exact Set.ncard_sdiff_add_ncard_of_subset (ofKind_subset_live kind) (Set.toFinite _)

theorem removals_countedBy (kinds : List NodeKind) :
    c.CountedBy ⟨removals kinds c⟩ kinds (c.withoutAll kinds) where
  order := map_fst_removals kinds
  count split := by
    rw [count_removals split]
    congr 1
    ext id
    exact mem_withoutAll_ofKind
  total := total_removals kinds

end Contents

theorem Query.withEndpoints_eq (kinds : List NodeKind) : withEndpoints kinds =
    kinds ++ if .component ∈ kinds ∧ .endpoint ∉ kinds then [.endpoint] else [] := by
  rw [withEndpoints]
  split <;> rename_i asked <;> simp_all

theorem Query.mem_withEndpoints {kinds : List NodeKind} {kind : NodeKind} :
    kind ∈ withEndpoints kinds ↔ kind ∈ kinds ∨ kind = .endpoint ∧
      .component ∈ kinds := by
  rw [withEndpoints_eq, List.mem_append]
  split
  · rename_i asked
    rw [List.mem_singleton, and_iff_left asked.1]
  · rename_i asked
    rw [or_iff_left List.not_mem_nil]
    refine (or_iff_left_of_imp ?_).symm
    rintro ⟨rfl, component⟩
    exact not_not.mp fun missing => asked ⟨component, missing⟩

namespace Medium

variable {medium : Medium} {s : medium.State}

theorem Reachable.run_of_leads {α : Type} {p : Program α} {x : α} {c' : Contents}
    (reached : medium.Reachable s) (leads : Leads p (medium.view.holds s) x c') :
    ∃ s', p.run medium.store s = (x, s') ∧ medium.view.holds s' = c' ∧
      medium.Reachable s' := by
  obtain ⟨s', ran, holds, -⟩ := medium.run_of_leads reached.sound leads
  have room := medium.faithful.room_of_determined p reached.sound leads
  have after := reached.run p (suffices_of_room room)
  rw [ran] at after
  exact ⟨s', ran, holds, after⟩

theorem Reachable.insert_unkeyed (reached : medium.Reachable s) {node : Node} {key : NodeKey}
    (own : node.key? = some key) (unkeyed : (medium.view.holds s).keyed key = ∅)
    (admitted : medium.Admits (.insertNode node) s) :
    (∃ id, (medium.store.call (.insertNode node) s).1 = .ok id) ∨
      (∃ row, (medium.store.call (.insertNode node) s).1 = .error (.idOverflow row)) ∧
        (medium.view.holds s).Exhausted := by
  rcases (reached.tried admitted).insert_cases with ⟨id, _, _, done, _⟩ |
    ⟨key', own', held, _⟩ |
    ⟨row, full, exhausted, _⟩
  · exact Or.inl ⟨id, done⟩
  · obtain rfl := Option.some.inj (own.symm.trans own')
    exact absurd unkeyed held.ne_empty
  · exact Or.inr ⟨⟨row, full⟩, exhausted⟩

theorem admits_of_missing {id : NodeId} (missing : (medium.view.holds s).node? id = none)
    (q : Call) :
    medium.Admits q s := by
  cases medium with
  | memory =>
      refine fun _ => ⟨id, ?_⟩
      rw [← Bool.not_eq_true, DependencyGraph.contains_iff]
      exact Contents.not_mem_live.mpr missing
  | database => trivial

/-- In whatever state a store is, removing kinds of node takes away the nodes of these kinds and,
with components, the endpoints, and leaves everything else as it was. The answer says in the order
of the request how many nodes each kind had left. A removed node can be inserted again. -/
theorem resetKinds_removes_exactly (medium : Medium) {s : medium.State}
    (reached : medium.Reachable s) (kinds : List NodeKind) :
    ∃ removal s', (Query.resetKinds kinds).run.run medium.store s = (.ok removal, s') ∧
      medium.Reachable s' ∧
      (medium.view.holds s).LeftBy (fun kind => kind ∈ kinds ∨ kind = .endpoint ∧
        .component ∈ kinds)
        (medium.view.holds s') ∧
      (medium.view.holds s).CountedBy removal
        (kinds ++ if .component ∈ kinds ∧ .endpoint ∉ kinds then [.endpoint] else [])
        (medium.view.holds s') ∧
      ∀ id node key, (medium.view.holds s).node? id = some node →
        (medium.view.holds s').node? id = none → node.key? = some key →
        (medium.store.call (.findNode key) s').1 = .ok none ∧
        ((∃ new, (medium.store.call (.insertNode node) s').1 = .ok new) ∨
          (∃ row, (medium.store.call (.insertNode node) s').1 = .error (.idOverflow row)) ∧
            (medium.view.holds s').Exhausted) := by
  obtain ⟨s', ran, holds, after⟩ := reached.run_of_leads (leads_resetKinds kinds)
  have left : (medium.view.holds s).LeftBy
      (fun kind => kind ∈ kinds ∨ kind = .endpoint ∧ .component ∈ kinds)
        (medium.view.holds s') := by
    simp only [← Query.mem_withEndpoints]
    exact holds ▸ reached.valid.withoutAll_leftBy _
  refine ⟨_, s', ran, after, left, ?_, fun id node key found missing own => ?_⟩
  · rw [← Query.withEndpoints_eq, holds]
    exact Contents.removals_countedBy _
  · have unkeyed := left.unkeyed found missing own
    refine ⟨?_, after.insert_unkeyed own unkeyed (admits_of_missing missing _)⟩
    obtain ⟨answer, -, -⟩ :=
      medium.faithful.call_of_determined (q := .findNode key) after.sound rfl
    rw [answer, Contents.find?_eq_none.mpr unkeyed]

/-- Symbols are asked for twice and components without endpoints, in an open level. The removed
symbol may come back. -/
theorem resetKinds_removes_exactly_repeated :
    let s := [Call.insertNode (.component ⟨"shop", "1.0"⟩),
      .insertNode (.endpoint "/pay" (NodeId.ofNat 0)),
      .insertEdge ⟨NodeId.ofNat 1, .exposes, NodeId.ofNat 0⟩, .insertNode (.symbol "parse"),
      .markNodes [NodeId.ofNat 2]].foldl (fun s q => (memory.store.call q s).2)
        (memory.store.control .begin memory.initial).2
    memory.Reachable s ∧ ∃ removal s',
      (Query.resetKinds [.symbol, .component, .symbol]).run.run memory.store s =
        (.ok removal, s') ∧
        removal.removed.map Prod.fst = [.symbol, .component, .symbol, .endpoint] ∧
        removal.total + (memory.view.holds s').live.ncard = (memory.view.holds s).live.ncard ∧
        (memory.store.call (.findNode (.symbol "parse")) s').1 = .ok none := by
  intro s
  have free (n : Nat) {q : Call} {t : Memory}
      (missing : t.graph.contains (NodeId.ofNat n) = false) :
      memory.Admits q t := fun _ => ⟨_, missing⟩
  have reached : memory.Reachable s :=
    .call _ (.call _ (.call _ (.call _ (.call _ (.control _ .start) (free 0 rfl)) (free 1 rfl))
      (free 2 rfl)) (free 2 rfl)) (free 3 rfl)
  obtain ⟨removal, s', ran, -, left, counted, again⟩ :=
    resetKinds_removes_exactly memory reached [.symbol, .component, .symbol]
  have missing : (memory.view.holds s').node? (NodeId.ofNat 2) = none := by
    refine Option.eq_none_iff_forall_ne_some.mpr fun node found => ?_
    obtain ⟨before, stays⟩ := (left.nodes _ _).mp found
    have same : node = .symbol "parse" := Option.some.inj (before.symm.trans rfl)
    exact stays (Or.inl (same ▸ List.mem_cons_self))
  exact ⟨reached, removal, s', ran, counted.order, counted.total,
    (again (NodeId.ofNat 2) (.symbol "parse") _ rfl missing rfl).1⟩

/-- The symbol that stays has the greatest identifier, so that the component
cannot be made again. -/
theorem resetKinds_exhausts :
    let s := database.reached Operation.exhausting
    let node : Node := .component ⟨"web", "1.0"⟩
    database.Reachable s ∧ ∃ removal s',
      (Query.resetKinds [.component]).run.run database.store s = (.ok removal, s') ∧
      (database.view.holds s).node? (NodeId.ofNat (NodeId.count - 2)) = some node ∧
      (database.view.holds s').node? (NodeId.ofNat (NodeId.count - 2)) = none ∧
      (database.store.call (.insertNode node) s').1 = .error (.idOverflow NodeId.count) := by
  refine ⟨reachable_exhausting, ?_⟩
  rw [reached_exhausting]
  exact ⟨_, _, rfl, by decide +kernel, by decide +kernel, rfl⟩

end Medium

end BlastRadius
