import BlastRadius.Proofs.Parity.Dependencies

/-!
The operation that records bindings does alike. Which of several old bindings about the same nodes
comes first depends on identifiers; whether there is one does not.
-/

namespace BlastRadius

variable {c : Contents} {f : Renaming}

namespace Contents

def requested (c : Contents) (request : BindingRequest) : Set NodeId :=
  {id | ∃ key ∈ request.keys, id ∈ c.keyed key}

def bindingsOf (c : Contents) (ids : Set NodeId) : Set NodeId :=
  {b ∈ c.ofKind .binding | c.targets b .specializesInto = ids}

theorem rename_bindingsOf (ids : Set NodeId) :
    (c.rename f).bindingsOf (f '' ids) = f '' c.bindingsOf ids := by
  ext b
  obtain ⟨b, rfl⟩ := f.surjective b
  rw [bindingsOf, Set.mem_sep_iff, rename_ofKind, rename_targets, f.injective.mem_set_image,
    f.injective.mem_set_image, Set.image_eq_image f.injective]
  rfl

end Contents

theorem BindingRequest.of_mem_keys {request : BindingRequest} {key : NodeKey}
    (mem : key ∈ request.keys) :
    (∀ f : Renaming, key.rename f = key) ∧
      Relation.specializesInto.permits .binding key.kind := by
  rw [keys, List.mem_filterMap] at mem
  obtain ⟨_, mem, rfl⟩ := mem
  simp only [List.mem_cons, List.not_mem_nil, or_false, eq_comm (a := some key),
    Option.map_eq_some_iff] at mem
  obtain ⟨_, _, rfl⟩ | ⟨_, _, rfl⟩ | ⟨_, _, rfl⟩ :=
    mem <;> exact ⟨fun _ => rfl, rfl⟩

namespace Contents

theorem rename_requested (request : BindingRequest) :
    (c.rename f).requested request = f '' c.requested request := by
  ext id
  rw [Set.mem_image_equiv]
  refine exists_congr fun key => and_congr_right fun mem => ?_
  rw [← Set.mem_image_equiv, ← rename_keyed, (BindingRequest.of_mem_keys mem).1]

theorem requested_allowed (request : BindingRequest) :
    c.requested request ⊆ c.allowed .binding .specializesInto := by
  rintro id ⟨key, mem, node, found, own⟩
  exact ⟨key.kind, ⟨node, found, (Node.kind_of_key? own).symm⟩,
    (BindingRequest.of_mem_keys mem).2⟩

theorem requested_subset_live (request : BindingRequest) : c.requested request ⊆ c.live := by
  intro id mem
  obtain ⟨kind, own, _⟩ := requested_allowed request mem
  exact ofKind_subset_live kind own

end Contents

theorem reads_resolveTargets (valid : c.Valid) (request : BindingRequest) :
    Reads (Inventory.resolveTargets request) c (NodeId.listed (c.requested request)) := by
  have found : Finds (StoreProgram.gather (fun key => do
      let id ← StoreProgram.call (.findNode key)
      return id.toList) request.keys) c (c.requested request) := by
    refine Finds.gather (g := c.keyed) fun key _ => ?_
    refine ⟨(c.find? key).toList, (Reads.findNode key).bind (.pure _), fun id => ?_⟩
    rw [Option.mem_toList, valid.find?_eq_some]
  obtain ⟨l, reads, mem⟩ := found
  refine reads.bind ?_
  rw [NodeId.ascending_eq_listed, show {id | id ∈ l} = c.requested request from Set.ext mem]
  exact .pure _

theorem reads_bindingAmong {ids candidates : Set NodeId}
    (bindings : candidates ⊆ c.ofKind .binding)
    (all : c.bindingsOf ids ⊆ candidates) :
    Reads (StoreProgram.first? (fun candidate => do
      let existing ← StoreProgram.call (.targets candidate .specializesInto)
      return NodeId.ascending existing == NodeId.listed ids) (NodeId.listed candidates)) c
      (NodeId.listed (c.bindingsOf ids)).head? := by
  classical
  have same : {b ∈ candidates | decide (c.targets b .specializesInto = ids) = true} =
      c.bindingsOf ids := by
    ext b
    rw [Set.mem_sep_iff, decide_eq_true_iff]
    exact ⟨fun h => ⟨bindings h.1, h.2⟩, fun h => ⟨all h, h.2⟩⟩
  rw [← same, ← NodeId.find?_listed]
  refine Reads.first? fun b mem => ?_
  have live := Contents.ofKind_subset_live _ (bindings (NodeId.mem_listed.mp mem))
  refine (Reads.targets live .specializesInto).bind ?_
  have check : (NodeId.ascending (NodeId.listed (c.targets b .specializesInto)) ==
      NodeId.listed ids) = decide (c.targets b .specializesInto = ids) := by
    rw [Bool.eq_iff_iff, beq_iff_eq, decide_eq_true_iff, NodeId.ascending_eq_listed,
      NodeId.listed_injective.eq_iff]
    simp only [NodeId.mem_listed, Set.ofPred_mem_eq]
  rw [check]
  exact .pure _

theorem reads_exactBinding (valid : c.Valid) {ids : Set NodeId} (live : ids ⊆ c.live) :
    Reads (Inventory.exactBinding (NodeId.listed ids)) c
      (NodeId.listed (c.bindingsOf ids)).head? := by
  have search {candidates : Set NodeId} := @reads_bindingAmong c ids candidates
  cases elements : NodeId.listed ids with
  | nil =>
      rw [elements] at search
      exact (Reads.nodesOfKind .binding).bind (search subset_rfl fun b mem => mem.1)
  | cons first rest =>
      have member : first ∈ ids := NodeId.mem_listed.mp (elements ▸ List.mem_cons_self)
      rw [elements] at search
      refine (Reads.sources (live member) .specializesInto).bind (search ?_ ?_)
      · intro b edge
        exact valid.source_kind (by decide) edge
      · rintro b ⟨_, rfl⟩
        exact member

theorem AgreeLists.grown {c₁ : Contents} {f₁ : Renaming} {l l' : List NodeId}
    (lists : AgreeLists f l l') (grown : Grown c f c₁ f₁) (live : ∀ id ∈ l, id ∈ c.live) :
    AgreeLists f₁ l l' := by
  rwa [AgreeLists, List.map_congr_left fun id mem => grown.same id (live id mem)]

namespace Alike

theorem resolveTargets (request : BindingRequest) :
    Alike c f (Inventory.resolveTargets request) (Inventory.resolveTargets request)
      fun c₁ f₁ x y => c₁ = c ∧ f₁ = f ∧ x = NodeId.listed (c.requested request) ∧
        y = NodeId.listed (f '' c.requested request) := by
  refine .reads fun tidy valid => ?_
  have right := reads_resolveTargets valid request
  rw [Contents.rename_requested] at right
  exact ⟨_, _, reads_resolveTargets tidy.valid request, right, rfl, rfl⟩

theorem exactBinding {ids : Set NodeId} (live : ids ⊆ c.live) :
    Alike c f (Inventory.exactBinding (NodeId.listed ids))
      (Inventory.exactBinding (NodeId.listed (f '' ids)))
      fun c₁ f₁ x y => c₁ = c ∧ f₁ = f ∧ x.isSome = y.isSome := by
  refine .reads fun tidy valid => ?_
  have live' : f '' ids ⊆ (c.rename f).live := by
    rw [Contents.rename_live]
    exact Set.image_mono live
  have right := reads_exactBinding valid live'
  rw [Contents.rename_bindingsOf] at right
  refine ⟨_, _, reads_exactBinding tidy.valid live, right, ?_⟩
  rw [Bool.eq_iff_iff, List.isSome_head?, List.isSome_head?, ne_eq, ne_eq, NodeId.listed_eq_nil,
    NodeId.listed_eq_nil, Set.image_eq_empty]

theorem insertBinding {ids : Set NodeId} (targets : ids ⊆ c.allowed .binding .specializesInto) :
    Alike c f (Inventory.insertBinding (NodeId.listed ids))
      (Inventory.insertBinding (NodeId.listed (f '' ids))) (Twin .binding) := by
  have insertable : Insertable c .binding := ⟨nofun, nofun, nofun⟩
  refine (insertNode insertable).bind fun c₁ f₁ b b' grown new => ?_
  obtain ⟨rfl, _, rfl⟩ := new
  have binding : Twin .binding (c.insert b .binding) f₁ b (f₁ b) :=
    ⟨⟨.binding, Contents.insert_node?_self b .binding, rfl⟩, rfl⟩
  have lists : AgreeLists f (NodeId.listed ids) (NodeId.listed (f '' ids)) :=
    NodeId.listed_image f ids
  refine (linkAll .specializesInto binding.1 ?_
    (lists.grown grown fun t mem => ?_) ⟨nofun, nofun⟩).bind
      fun c₂ f₂ _ _ grown' _ => .pure (binding.grown grown')
  · intro t mem
    obtain ⟨kind, own, permitted⟩ := targets (NodeId.mem_listed.mp mem)
    exact ⟨kind, grown.ofKind own, permitted⟩
  · obtain ⟨kind, own, _⟩ := targets (NodeId.mem_listed.mp mem)
    exact Contents.ofKind_subset_live kind own

theorem createBinding (request : BindingRequest) :
    Alike c f (Inventory.createBinding request) (Inventory.createBinding request)
      fun _ f₁ x y => x.Agree f₁ y := by
  refine (atomically ?_).ofStore
  refine (resolveTargets request).bind fun c₁ f₁ xs ys _ resolved => ?_
  obtain ⟨rfl, rfl, rfl, rfl⟩ := resolved
  have allowed := Contents.requested_allowed (c := c₁) request
  have live := Contents.requested_subset_live (c := c₁) request
  have lists : AgreeLists f₁ (NodeId.listed (c₁.requested request))
      (NodeId.listed (f₁ '' c₁.requested request)) := NodeId.listed_image f₁ _
  refine (exactBinding live).bind fun c₂ f₂ x y _ found => ?_
  obtain ⟨rfl, rfl, same⟩ := found
  rcases x with _ | b <;> rcases y with _ | b'
  · refine (insertBinding allowed).bind fun c₃ f₃ b b' grown binding => .pure ?_
    exact ⟨rfl, fun _ => binding.2, lists.grown grown fun t mem =>
      live (NodeId.mem_listed.mp mem),
      rfl⟩
  · exact absurd same Bool.false_ne_true
  · exact absurd same.symm Bool.false_ne_true
  · exact .pure ⟨rfl, nofun, lists, rfl⟩

end Alike

end BlastRadius
