import BlastRadius.Proofs.Store.Contents
import Mathlib.Logic.Equiv.Set

/-!
Contents under other identifiers. A renaming permutes the identifiers, those inside endpoints
included; everything that the contents answer is renamed along.
-/

namespace BlastRadius

abbrev Renaming := Equiv.Perm NodeId

variable {f : Renaming}

def Node.rename (f : Renaming) : Node → Node
  | endpoint name owner => endpoint name (f owner)
  | node => node

def NodeKey.rename (f : Renaming) : NodeKey → NodeKey
  | endpoint name owner => endpoint name (f owner)
  | key => key

def Edge.rename (f : Renaming) (e : Edge) : Edge := ⟨f e.source, e.relation, f e.target⟩

namespace Node

@[simp] theorem rename_kind (node : Node) : (node.rename f).kind = node.kind := by
  cases node <;> rfl

@[simp] theorem rename_label (node : Node) : (node.rename f).label = node.label := by
  cases node <;> rfl

theorem rename_key? (node : Node) : (node.rename f).key? = node.key?.map (NodeKey.rename f) := by
  cases node with
  | vulnerability identity => cases identity <;> rfl
  | _ => rfl

@[simp] theorem rename_symm_rename (node : Node) : (node.rename f).rename f.symm = node := by
  cases node <;> simp [rename]

theorem rename_injective : Function.Injective (rename f) :=
  Function.LeftInverse.injective rename_symm_rename

theorem rename_congr {g : Renaming} {node : Node}
    (owner : ∀ name id, node = .endpoint name id → g id = f id) :
      node.rename g = node.rename f := by
  cases node with
  | endpoint name id => rw [rename, rename, owner name id rfl]
  | _ => rfl

end Node

namespace NodeKey

@[simp] theorem rename_symm_rename (key : NodeKey) : (key.rename f).rename f.symm = key := by
  cases key <;> simp [rename]

theorem rename_injective : Function.Injective (rename f) :=
  Function.LeftInverse.injective rename_symm_rename

@[simp] theorem rename_kind (key : NodeKey) : (key.rename f).kind = key.kind := by
  cases key <;> rfl

end NodeKey

theorem NodeId.listed_image (f : Renaming) (ids : Set NodeId) :
    (listed (f '' ids)).Perm ((listed ids).map f) := by
  rw [List.perm_ext_iff_of_nodup (listed_nodup _) ((listed_nodup ids).map f.injective)]
  intro id
  rw [mem_listed, List.mem_map]
  exact exists_congr fun other => and_congr_left fun _ => mem_listed.symm

theorem NodeId.ncard_image (f : Renaming) (ids : Set NodeId) : (f '' ids).ncard = ids.ncard :=
  Set.ncard_image_of_injective ids f.injective

namespace Contents

def rename (f : Renaming) (c : Contents) : Contents where
  node? id := (c.node? (f.symm id)).map (Node.rename f)
  edges := {e | ⟨f.symm e.source, e.relation, f.symm e.target⟩ ∈ c.edges}
  marked := {id | f.symm id ∈ c.marked}

variable {c : Contents}

theorem rename_node?_apply (id : NodeId) :
    (c.rename f).node? id = (c.node? (f.symm id)).map (Node.rename f) := rfl

theorem mem_rename_edges {e : Edge} :
    e ∈ (c.rename f).edges ↔ ⟨f.symm e.source, e.relation, f.symm e.target⟩ ∈ c.edges :=
      Iff.rfl

theorem mem_rename_marked {id : NodeId} : id ∈ (c.rename f).marked ↔
    f.symm id ∈ c.marked := Iff.rfl

@[simp] theorem rename_node? (id : NodeId) :
    (c.rename f).node? (f id) = (c.node? id).map (Node.rename f) := by
  simp [rename]

theorem rename_node?_eq_some {id : NodeId} {node : Node} (found : c.node? id = some node) :
    (c.rename f).node? (f id) = some (node.rename f) := by
  rw [rename_node?, found, Option.map_some]

theorem rename_lacks (e : Edge) : (c.rename f).lacks (e.rename f) = c.lacks e := by
  rw [Bool.eq_iff_iff, lacks_eq_true, lacks_eq_true, mem_rename_edges]
  simp [Edge.rename]

theorem rename_marked : (c.rename f).marked = f '' c.marked := by
  ext id
  rw [Set.mem_image_equiv]
  rfl

theorem rename_live : (c.rename f).live = f '' c.live := by
  ext id
  rw [Set.mem_image_equiv]
  simp [live, rename]

theorem rename_ofKind (kind : NodeKind) : (c.rename f).ofKind kind = f '' c.ofKind kind := by
  ext id
  rw [Set.mem_image_equiv]
  simp only [ofKind, rename, Option.map_eq_some_iff, Set.mem_ofPred_eq]
  constructor
  · rintro ⟨_, ⟨node, found, rfl⟩, own⟩
    exact ⟨node, found, by rwa [Node.rename_kind] at own⟩
  · rintro ⟨node, found, own⟩
    exact ⟨_, ⟨node, found, rfl⟩, by rwa [Node.rename_kind]⟩

theorem rename_keyed (key : NodeKey) : (c.rename f).keyed (key.rename f) = f '' c.keyed key := by
  ext id
  rw [Set.mem_image_equiv]
  simp only [keyed, rename, Option.map_eq_some_iff, Set.mem_ofPred_eq]
  constructor
  · rintro ⟨_, ⟨node, found, rfl⟩, own⟩
    rw [Node.rename_key?, Option.map_eq_some_iff] at own
    obtain ⟨key', own, same⟩ := own
    exact ⟨node, found, NodeKey.rename_injective same ▸ own⟩
  · rintro ⟨node, found, own⟩
    exact ⟨_, ⟨node, found, rfl⟩, by rw [Node.rename_key?, own, Option.map_some]⟩

theorem rename_targets (id : NodeId) (relation : Relation) :
    (c.rename f).targets (f id) relation = f '' c.targets id relation := by
  ext t
  rw [Set.mem_image_equiv]
  simp [targets, rename]

theorem rename_sources (id : NodeId) (relation : Relation) :
    (c.rename f).sources (f id) relation = f '' c.sources id relation := by
  ext s
  rw [Set.mem_image_equiv]
  simp [sources, rename]

theorem rename_isMarked (id : NodeId) : (c.rename f).isMarked (f id) = c.isMarked id := by
  rw [Bool.eq_iff_iff, isMarked_eq_true, isMarked_eq_true, rename_marked, Set.mem_image_equiv,
    Equiv.symm_apply_apply]

theorem rename_empty : empty.rename f = empty := by
  refine Contents.ext ?_ ?_ ?_ <;> ext <;> simp [rename, empty]

theorem rename_insert (id : NodeId) (node : Node) :
    (c.insert id node).rename f = (c.rename f).insert (f id) (node.rename f) := by
  refine Contents.ext (funext fun other => ?_) rfl rfl
  by_cases same : other = f id
  · subst same
    rw [rename_node?, insert_node?_self, insert_node?_self, Option.map_some]
  · have ne : f.symm other ≠ id := fun h => same (f.symm_apply_eq.mp h)
    rw [insert_node?_of_ne _ same, rename_node?_apply, insert_node?_of_ne _ ne, rename_node?_apply]

theorem rename_link (e : Edge) : (c.link e).rename f = (c.rename f).link (e.rename f) := by
  refine Contents.ext rfl (Set.ext fun d => ?_) rfl
  have same : (⟨f.symm d.source, d.relation, f.symm d.target⟩ : Edge) = e ↔
      d = e.rename f := by
    obtain ⟨s, r, t⟩ := d
    obtain ⟨s', r', t'⟩ := e
    simp [Edge.rename, Equiv.symm_apply_eq]
  exact or_congr_left same

theorem rename_mark (ids : Set NodeId) : (c.mark ids).rename f = (c.rename f).mark (f '' ids) := by
  refine Contents.ext rfl rfl ?_
  rw [rename_marked, mark_marked, mark_marked, rename_marked, Set.image_union]

theorem rename_unmarked : c.unmarked.rename f = (c.rename f).unmarked :=
  Contents.ext rfl rfl rfl

theorem rename_without (kind : NodeKind) :
    (c.without kind).rename f = (c.rename f).without kind := by
  have own (id : NodeId) : id ∈ (c.rename f).ofKind kind ↔ f.symm id ∈ c.ofKind kind := by
    rw [rename_ofKind, Set.mem_image_equiv]
  refine Contents.ext (funext fun id => ?_) (Set.ext fun e => ?_) (Set.ext fun id => ?_)
  · simp only [rename, without, Option.filter_map]
    congr 2
    funext node
    simp
  · change _ ↔ e ∈ (c.rename f).edges ∧ e.source ∉ (c.rename f).ofKind kind ∧
      e.target ∉ (c.rename f).ofKind kind
    rw [own, own]
    rfl
  · change _ ↔ id ∈ (c.rename f).marked ∧ id ∉ (c.rename f).ofKind kind
    rw [own]
    rfl

theorem rename_congr {g : Renaming} (valid : c.Valid) (same : ∀ id ∈ c.live, g id = f id)
    (owners : ∀ id name owner, c.node? id = some (.endpoint name owner) → owner ∈ c.live) :
    c.rename g = c.rename f := by
  have back {id : NodeId} (live : f.symm id ∈ c.live ∨ g.symm id ∈ c.live) :
      g.symm id = f.symm id := by
    rcases live with live | live
    · rw [g.symm_apply_eq, same _ live, f.apply_symm_apply]
    · rw [eq_comm, f.symm_apply_eq, ← same _ live, g.apply_symm_apply]
  have edge (e : Edge) : (⟨g.symm e.source, e.relation, g.symm e.target⟩ : Edge) ∈ c.edges ↔
      (⟨f.symm e.source, e.relation, f.symm e.target⟩ : Edge) ∈ c.edges := by
    constructor
    · intro mem
      rwa [← back (Or.inr (valid.source_live mem)), ← back (Or.inr (valid.target_live mem))]
    · intro mem
      rwa [back (Or.inl (valid.source_live mem)), back (Or.inl (valid.target_live mem))]
  refine Contents.ext (funext fun id => ?_) (Set.ext edge) (Set.ext fun id => ?_)
  · rw [rename_node?_apply, rename_node?_apply]
    by_cases live : f.symm id ∈ c.live
    · obtain ⟨node, found⟩ := live
      rw [back (Or.inl ⟨node, found⟩), found, Option.map_some, Option.map_some,
        Node.rename_congr]
      rintro name owner rfl
      exact same owner (owners _ name owner found)
    · have other : g.symm id ∉ c.live := fun h => live (back (Or.inr h) ▸ h)
      rw [not_mem_live.mp live, not_mem_live.mp other, Option.map_none, Option.map_none]
  · rw [mem_rename_marked, mem_rename_marked]
    constructor
    · intro mem
      rwa [← back (Or.inr (valid.marked_live mem))]
    · intro mem
      rwa [back (Or.inl (valid.marked_live mem))]

theorem Valid.rename (valid : c.Valid) (f : Renaming) : (c.rename f).Valid where
  permitted e mem := by
    obtain ⟨source, target, hs, ht, permitted⟩ := valid.permitted _ mem
    refine ⟨source.rename f, target.rename f, ?_, ?_, by simpa using permitted⟩
    · rw [rename_node?_apply, hs, Option.map_some]
    · rw [rename_node?_apply, ht, Option.map_some]
  marked_live := by
    rw [rename_marked, rename_live]
    exact Set.image_mono valid.marked_live
  key_unique key := by
    rw [← NodeKey.rename_symm_rename (f := f.symm) key, Equiv.symm_symm, rename_keyed]
    exact (valid.key_unique _).image f

theorem Valid.rename_find? (valid : c.Valid) (key : NodeKey) :
    (c.rename f).find? (key.rename f) = (c.find? key).map f := by
  cases found : c.find? key with
  | none =>
      rw [find?_eq_none] at found
      rw [Option.map_none, find?_eq_none, rename_keyed, found, Set.image_empty]
  | some id =>
      rw [valid.find?_eq_some] at found
      rw [Option.map_some, (valid.rename f).find?_eq_some, rename_keyed]
      exact Set.mem_image_of_mem f found

end Contents

end BlastRadius
