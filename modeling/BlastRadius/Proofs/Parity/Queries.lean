import BlastRadius.Proofs.Parity.Loading
import BlastRadius.Proofs.Propagation.Radius
import BlastRadius.Query.Structure
import Mathlib.Data.Prod.Lex
import Mathlib.Data.String.Basic

/-!
The queries do alike. What is listed by identifier is listed in two orders; what is
sorted by its text is not.
-/

namespace BlastRadius

variable {α : Type} {c : Contents} {f : Renaming}

section Sorting

variable {κ : Type} [LinearOrder κ] {key : α → κ} {le : α → α → Bool}

theorem pairwise_mergeSort (compares : ∀ a b, le a b = true ↔ key a ≤ key b) (l : List α) :
    (l.mergeSort le).Pairwise fun a b => key a ≤ key b := by
  have trans (a b c : α) : le a b = true → le b c = true → le a c = true := by
    rw [compares, compares, compares]
    exact le_trans
  have total (a b : α) : (le a b || le b a) = true := by
    rw [Bool.or_eq_true, compares, compares]
    exact le_total (key a) (key b)
  exact (List.pairwise_mergeSort trans total l).imp (compares _ _).mp

/-- Sorting by a key that tells all elements apart does not depend on the order before. -/
theorem mergeSort_eq_of_perm (compares : ∀ a b, le a b = true ↔ key a ≤ key b)
    (injective : Function.Injective key) {l l' : List α} (perm : l.Perm l') :
    l.mergeSort le = l'.mergeSort le := by
  refine List.Perm.eq_of_pairwise
    (fun a b _ _ below above => injective (le_antisymm below above))
    (pairwise_mergeSort compares l) (pairwise_mergeSort compares l') ?_
  exact (List.mergeSort_perm l le).trans (perm.trans (List.mergeSort_perm l' le).symm)

end Sorting

theorem not_lt_iff_le (a b : String) : (!decide (b < a)) = true ↔ a ≤ b := by
  rw [Bool.not_eq_true', decide_eq_false_iff_not, not_lt]

theorem sortTexts_eq_of_perm {l l' : List String} (perm : l.Perm l') :
    Query.sortTexts l = Query.sortTexts l' :=
  mergeSort_eq_of_perm not_lt_iff_le Function.injective_id perm

theorem Artifact.le_iff (a b : Artifact) :
    a.le b = true ↔ toLex (a.name, a.version) ≤ toLex (b.name, b.version) := by
  rw [Prod.Lex.toLex_le_toLex, Artifact.le, Bool.or_eq_true, Bool.and_eq_true, decide_eq_true_iff,
    beq_iff_eq, Bool.not_eq_true', decide_eq_false_iff_not, not_lt]

theorem Artifact.sort_eq_of_perm {l l' : List Artifact} (perm : l.Perm l') :
    Artifact.sort l = Artifact.sort l' := by
  refine mergeSort_eq_of_perm le_iff (fun a b same => ?_) perm
  rwa [toLex_inj, Prod.mk.injEq, ← Artifact.mk.injEq] at same

/-- What is picked from listed nodes. -/
def Contents.picked (c : Contents) (pick : Node → Option α) (ids : List NodeId) : List α :=
  ids.flatMap fun id => ((c.node? id).bind pick).toList

theorem reads_pickFrom {pick : Node → Option α} {ids : List NodeId}
    (live : ∀ id ∈ ids, id ∈ c.live) : Reads (Query.pickFrom pick ids) c
      (c.picked pick ids) := by
  refine Reads.gather fun id mem => ?_
  obtain ⟨node, found⟩ := live id mem
  rw [found]
  exact (Reads.getNode found).bind (.pure _)

theorem Contents.picked_perm {pick : Node → Option α}
    (plain : ∀ node, pick (node.rename f) = pick node)
    {l l' : List NodeId} (lists : AgreeLists f l l') :
    ((c.rename f).picked pick l').Perm (c.picked pick l) := by
  refine (List.Perm.flatMap_right _ lists).trans ?_
  rw [List.flatMap_map]
  refine List.Perm.flatMap_left l fun id _ => ?_
  rw [rename_node?, Option.bind_map]
  exact .of_eq (congrArg _ (congrArg _ (funext plain)))

/-- The symbols that a symbol is recorded to call. -/
noncomputable def Contents.called (c : Contents) (id : NodeId) : List String :=
  (NodeId.listed (c.sources id .caller)).flatMap fun record =>
    c.picked Query.symbolOf (NodeId.listed (c.targets record .callees))

theorem reads_called (valid : c.Valid) (id : NodeId) : Reads (StoreProgram.gather (fun record => do
      let called ← StoreProgram.call (.targets record .callees)
      Query.pickFrom Query.symbolOf called) (NodeId.listed (c.sources id .caller))) c
    (c.called id) := by
  refine Reads.gather fun record mem => ?_
  have live := valid.source_live (NodeId.mem_listed.mp mem)
  refine (Reads.targets live .callees).bind (reads_pickFrom fun callee mem => ?_)
  exact valid.target_live (NodeId.mem_listed.mp mem)

theorem Contents.called_perm (id : NodeId) : ((c.rename f).called (f id)).Perm (c.called id) := by
  rw [called, rename_sources]
  refine ((NodeId.listed_image f _).flatMap_right _).trans ?_
  rw [List.flatMap_map]
  refine List.Perm.flatMap_left _ fun record _ => ?_
  rw [rename_targets]
  exact picked_perm (fun node => by cases node <;> rfl) (NodeId.listed_image f _)

theorem Contents.group_agree (kind : NodeKind) :
    (c.group kind).Agree f ((c.rename f).group kind) where
  kind := rfl
  nodes := by
    rw [group, rename_marked, rename_ofKind, ← Set.image_inter f.injective]
    refine ((NodeId.listed_image f _).map _).trans (.of_eq ?_)
    rw [group, List.map_map, List.map_map]
    refine List.map_congr_left fun id _ => ?_
    rw [Function.comp_apply, Function.comp_apply, rename_node?, Option.map_map]
    congr 3
    exact funext Node.rename_label

theorem filter_agree {groups groups' : List KindGroup}
    (agree : List.Forall₂ (KindGroup.Agree f) groups groups') :
    List.Forall₂ (KindGroup.Agree f) (groups.filter fun group => !group.nodes.isEmpty)
      (groups'.filter fun group => !group.nodes.isEmpty) := by
  refine List.rel_filter (fun a b related => ?_) agree
  have same := related.nodes.length_eq
  rw [List.length_map] at same
  change (!a.nodes.isEmpty) = true ↔ (!b.nodes.isEmpty) = true
  rw [Bool.not_eq_true', Bool.not_eq_true', List.isEmpty_eq_false_iff, List.isEmpty_eq_false_iff,
    ← List.length_pos_iff, ← List.length_pos_iff, same]

namespace Alike

open Query

theorem targets {kind : NodeKind} {a b : NodeId} (twin : Twin kind c f a b) (relation : Relation) :
    Alike c f (StoreProgram.call (.targets a relation)) (StoreProgram.call (.targets b relation))
      fun c₁ f₁ x y => c₁ = c ∧ f₁ = f ∧ (∀ id ∈ x, id ∈ c.live) ∧
        AgreeLists f x y := by
  obtain ⟨own, rfl⟩ := twin
  refine .reads fun tidy _ => ?_
  have live := Contents.ofKind_subset_live _ own
  have live' : f a ∈ (c.rename f).live := Contents.rename_live ▸ Set.mem_image_of_mem f live
  have right := Reads.targets live' relation
  rw [Contents.rename_targets] at right
  refine ⟨_, _, Reads.targets live relation, right, fun id mem => ?_, NodeId.listed_image f _⟩
  exact tidy.valid.target_live (NodeId.mem_listed.mp mem)

theorem sources {kind : NodeKind} {a b : NodeId} (twin : Twin kind c f a b) (relation : Relation) :
    Alike c f (StoreProgram.call (.sources a relation)) (StoreProgram.call (.sources b relation))
      fun c₁ f₁ x y => c₁ = c ∧ f₁ = f ∧ (∀ id ∈ x, id ∈ c.live) ∧
        AgreeLists f x y := by
  obtain ⟨own, rfl⟩ := twin
  refine .reads fun tidy _ => ?_
  have live := Contents.ofKind_subset_live _ own
  have live' : f a ∈ (c.rename f).live := Contents.rename_live ▸ Set.mem_image_of_mem f live
  have right := Reads.sources live' relation
  rw [Contents.rename_sources] at right
  refine ⟨_, _, Reads.sources live relation, right, fun id mem => ?_, NodeId.listed_image f _⟩
  exact tidy.valid.source_live (NodeId.mem_listed.mp mem)

theorem isMarked {kind : NodeKind} {a b : NodeId} (twin : Twin kind c f a b) :
    Alike c f (StoreProgram.call (.isMarked a)) (StoreProgram.call (.isMarked b))
      fun c₁ f₁ x y => c₁ = c ∧ f₁ = f ∧ y = x := by
  obtain ⟨own, rfl⟩ := twin
  refine .reads fun _ _ => ?_
  have live := Contents.ofKind_subset_live _ own
  have live' : f a ∈ (c.rename f).live := Contents.rename_live ▸ Set.mem_image_of_mem f live
  have right := Reads.isMarked live'
  rw [Contents.rename_isMarked] at right
  exact ⟨_, _, Reads.isMarked live, right, rfl⟩

theorem pickFrom {pick : Node → Option α} (plain : ∀ node, pick (node.rename f) = pick node)
    {l l' : List NodeId} (live : ∀ id ∈ l, id ∈ c.live) (lists : AgreeLists f l l') :
    Alike c f (Query.pickFrom pick l) (Query.pickFrom pick l')
      fun c₁ f₁ x y => c₁ = c ∧ f₁ = f ∧ y.Perm x := by
  refine .reads fun _ _ => ?_
  have live' : ∀ id ∈ l', id ∈ (c.rename f).live := by
    intro id mem
    obtain ⟨old, listed, rfl⟩ := List.mem_map.mp (lists.mem_iff.mp mem)
    rw [Contents.rename_live]
    exact Set.mem_image_of_mem f (live old listed)
  exact ⟨_, _, reads_pickFrom live, reads_pickFrom live', Contents.picked_perm plain lists⟩

theorem marked (kind : NodeKind) :
    Alike c f (Query.marked kind) (Query.marked kind) fun _ f₁ x y => AgreeLists f₁ x y := by
  refine Alike.ofStore ((Alike.reads (R := AgreeLists f) fun _ _ => ?_).mono ?_)
  · have right := Reads.markedNodes (c := c.rename f) kind
    rw [Contents.rename_marked, Contents.rename_ofKind, ← Set.image_inter f.injective] at right
    exact ⟨_, _, Reads.markedNodes kind, right, NodeId.listed_image f _⟩
  · rintro _ _ _ _ _ ⟨rfl, rfl, lists⟩
    exact lists

theorem library (artifact : Artifact) :
    Alike c f (Query.library artifact) (Query.library artifact) fun _ f₁ x y =>
      y = { x with id := f₁ x.id } := by
  refine (findArtifact (.library artifact) rfl).bind fun c₁ f₁ a b _ twin => ?_
  refine ofStore ?_
  refine (targets twin .provides).bind fun c₂ f₂ provided provided' _ found => ?_
  obtain ⟨rfl, rfl, live, lists⟩ := found
  refine (pickFrom (fun node => by cases node <;> rfl) live lists).bind
    fun c₃ f₃ xs ys _ picked => ?_
  obtain ⟨rfl, rfl, perm⟩ := picked
  refine (isMarked twin).bind fun c₄ f₄ m m' _ read => ?_
  obtain ⟨rfl, rfl, rfl⟩ := read
  refine .pure ?_
  rw [twin.2, sortTexts_eq_of_perm perm]

theorem component (artifact : Artifact) :
    Alike c f (Query.component artifact) (Query.component artifact) fun _ f₁ x y =>
      y = { x with id := f₁ x.id } := by
  refine (findArtifact (.component artifact) rfl).bind fun c₁ f₁ a b _ twin => ?_
  refine ofStore ?_
  refine (sources twin .exposes).bind fun c₂ f₂ exposed exposed' _ found => ?_
  obtain ⟨rfl, rfl, live, lists⟩ := found
  refine (pickFrom (fun node => by cases node <;> rfl) live lists).bind
    fun c₃ f₃ xs ys _ picked => ?_
  obtain ⟨rfl, rfl, perm⟩ := picked
  refine (targets twin .hostedBy).bind fun c₄ f₄ assets assets' _ found => ?_
  obtain ⟨rfl, rfl, live, lists⟩ := found
  refine (pickFrom (fun node => by cases node <;> rfl) live lists).bind
    fun c₅ f₅ hs hs' _ picked => ?_
  obtain ⟨rfl, rfl, perm'⟩ := picked
  refine (isMarked twin).bind fun c₆ f₆ m m' _ read => ?_
  obtain ⟨rfl, rfl, rfl⟩ := read
  refine .pure ?_
  rw [twin.2, sortTexts_eq_of_perm perm, Artifact.sort_eq_of_perm perm']

theorem callees (symbol : String) :
    Alike c f (Query.callees symbol) (Query.callees symbol) fun _ _ x y => y = x := by
  refine (findSymbol symbol).bind fun c₁ f₁ a b _ twin => ?_
  obtain ⟨own, rfl⟩ := twin
  refine (Alike.reads (R := fun x y => y = x) fun tidy valid => ?_).ofStore.mono
    fun _ _ _ _ _ same => same.2.2
  have live := Contents.ofKind_subset_live _ own
  have live' : f₁ a ∈ (c₁.rename f₁).live :=
    Contents.rename_live ▸ Set.mem_image_of_mem f₁ live
  refine ⟨_, _, (Reads.sources live .caller).bind ((reads_called tidy.valid a).bind (.pure _)),
    (Reads.sources live' .caller).bind ((reads_called valid (f₁ a)).bind (.pure _)), ?_⟩
  rw [sortTexts_eq_of_perm (Contents.called_perm a)]

theorem radius :
    Alike c f Query.radius Query.radius fun _ f₁ x y =>
      List.Forall₂ (KindGroup.Agree f₁) x.groups y.groups := by
  have groups : Alike c f (StoreProgram.each markedGroup NodeKind.all)
      (StoreProgram.each markedGroup NodeKind.all) fun c₁ f₁ xs ys =>
        c₁ = c ∧ f₁ = f ∧ List.Forall₂ (KindGroup.Agree f) xs ys := by
    refine .reads fun tidy valid => ?_
    refine ⟨_, _, Reads.each fun kind _ => reads_markedGroup tidy.valid kind,
      Reads.each fun kind _ => reads_markedGroup valid kind, ?_⟩
    rw [List.forall₂_map_left_iff, List.forall₂_map_right_iff, List.forall₂_same]
    exact fun kind _ => Contents.group_agree kind
  refine groups.ofStore.bind fun c₁ f₁ xs ys _ agree => ?_
  obtain ⟨rfl, rfl, agree⟩ := agree
  exact .pure (filter_agree agree)

theorem flowchart :
    Alike c f Query.flowchart Query.flowchart fun _ f₁ x y =>
      ∃ g g', DependencyGraph.Agree f₁ g g' ∧ x = Mermaid.render g ∧
        y = Mermaid.render g' :=
  loadGraph.ofStore.bind fun _ _ g g' _ agree => .pure ⟨g, g', agree, rfl, rfl⟩

end Alike

end BlastRadius
