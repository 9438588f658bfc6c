import BlastRadius.Proofs.Graph.Compact
import BlastRadius.Proofs.Node.KeyText
import BlastRadius.Proofs.Parity.Renaming
import BlastRadius.Proofs.Store.Answers
import BlastRadius.Proofs.Store.Dialogues

/-!
A store seen under other identifiers: its calls are made with their identifiers renamed, those of
components within endpoints and keys included, and what it answers is renamed back. Where the
contents determine an answer, renamed contents give the same answer in this way, in the same order
if the renaming keeps the order of the nodes.
-/

namespace BlastRadius

variable {σ α β : Type} {f : Renaming}

/-- The canonical text of a key under other identifiers. A text that belongs to no key stays. -/
noncomputable def NodeKey.renameText (f : Renaming) (text : String) : String :=
  match Function.partialInv canonical text with
  | some key => (key.rename f).canonical
  | none => text

theorem NodeKey.renameText_canonical (key : NodeKey) :
    renameText f key.canonical = (key.rename f).canonical := by
  rw [renameText, Function.partialInv_left canonical_injective]

noncomputable def StoreError.rename (f : Renaming) : StoreError → StoreError
  | nodeNotFound id => nodeNotFound (f id)
  | uniqueViolation key => uniqueViolation (NodeKey.renameText f key)
  | error => error

def Call.rename (f : Renaming) : Call → Call
  | insertNode node => insertNode (node.rename f)
  | getNode id => getNode (f id)
  | nodeKind id => nodeKind (f id)
  | findNode key => findNode (key.rename f)
  | nodesOfKind kind => nodesOfKind kind
  | insertEdge e => insertEdge (e.rename f)
  | targets id relation => targets (f id) relation
  | sources id relation => sources (f id) relation
  | isMarked id => isMarked (f id)
  | markedNodes kind => markedNodes kind
  | markNodes ids => markNodes (ids.map f)
  | clearMarks => clearMarks
  | loadGraph => loadGraph
  | removeKind kind => removeKind kind
  | reset => reset

def Entries.renameEntry (f : Renaming) (entry : NodeId × NodeRecord) : NodeId × NodeRecord :=
  (f entry.1, { entry.2 with node := entry.2.node.rename f })

/-- A graph that is built again from its records and edges under other identifiers. -/
def DependencyGraph.rebuilt (f : Renaming) (g : DependencyGraph) :
    Except StoreError DependencyGraph :=
  (ofParts (g.nodes.map (Entries.renameEntry f)) (g.edges.map (Edge.rename f))).mapError .ofGraph

/-- An answer under other identifiers, where `value` renames what is answered with. -/
noncomputable def renamedAnswer (f : Renaming) (value : α → Except StoreError β) :
    Except StoreError α → Except StoreError β
  | .ok x => value x
  | .error error => .error (error.rename f)

/-- The answer to a renamed call as the answer to the call. -/
noncomputable def Call.translate (f : Renaming) :
    (q : Call) → Except StoreError (q.rename f).Reply → Except StoreError q.Reply
  | insertNode _ => renamedAnswer f.symm fun id => .ok (f.symm id)
  | getNode _ => renamedAnswer f.symm fun node => .ok (node.rename f.symm)
  | findNode _ => renamedAnswer f.symm fun found => .ok (found.map f.symm)
  | nodesOfKind _ | targets _ _ | sources _ _ | markedNodes _ =>
      renamedAnswer f.symm fun ids => .ok (ids.map f.symm)
  | loadGraph => renamedAnswer f.symm (DependencyGraph.rebuilt f.symm)
  | nodeKind _ | insertEdge _ | isMarked _ | markNodes _ | clearMarks | removeKind _ | reset =>
      renamedAnswer f.symm .ok

/-- A store as it is seen under other identifiers. -/
noncomputable def Store.renamed (f : Renaming) (store : Store σ) : Store σ :=
  .plain store.control fun q s =>
    (q.translate f (store.call (q.rename f) s).1, (store.call (q.rename f) s).2)

theorem Store.Mirrors.renamed {τ : Type} {store : Store σ} {other : Store τ} {image : τ → σ}
    (mirrors : store.Mirrors other image) : (store.renamed f).Mirrors (other.renamed f) image where
  control := mirrors.control
  call q t := by
    change (q.translate f (store.call (q.rename f) (image t)).1, _) = _
    rw [mirrors.call]
    rfl

theorem NodeId.listed_image_of_mono {ids : Set NodeId} (mono : StrictMonoOn f ids) :
    listed (f '' ids) = (listed ids).map f := by
  symm
  apply eq_listed
  · rw [List.pairwise_map]
    refine (listed_pairwise ids).imp_of_mem fun ha hb lt => ?_
    exact mono (mem_listed.mp ha) (mem_listed.mp hb) lt
  · intro id
    rw [List.mem_map]
    exact exists_congr fun other => and_congr_left fun _ => mem_listed

namespace Contents

variable {c c' : Contents}

theorem listed_renamed (mono : StrictMonoOn f c.live) {ids : Set NodeId} (live : ids ⊆ c.live) :
    (NodeId.listed (f '' ids)).map f.symm = NodeId.listed ids := by
  have within : StrictMonoOn f ids := fun a ha b hb => mono (live ha) (live hb)
  rw [NodeId.listed_image_of_mono within, List.map_map, Equiv.symm_comp_self, List.map_id]

theorem about_renamed {id : NodeId} {answer : Node → α} {answer' : Node → β}
    {value : β → Except StoreError α}
    (same : ∀ node, c.node? id = some node →
      value (answer' (node.rename f)) = .ok (answer node)) :
    renamedAnswer f.symm value ((c.rename f).about (f id) answer') = c.about id answer := by
  rw [about, about, rename_node?]
  cases found : c.node? id with
  | none =>
      change Except.error (StoreError.nodeNotFound (f.symm (f id))) = _
      rw [f.symm_apply_apply]
  | some node => exact same node found

theorem linked_renamed (e : Edge) :
    ((c.rename f).linked (e.rename f)).2 = (c.linked e).2.rename f ∧
      renamedAnswer f.symm .ok ((c.rename f).linked (e.rename f)).1 = (c.linked e).1 := by
  have source : (c.rename f).node? (e.rename f).source = (c.node? e.source).map (Node.rename f) :=
    rename_node? e.source
  have target : (c.rename f).node? (e.rename f).target = (c.node? e.target).map (Node.rename f) :=
    rename_node? e.target
  have back (id : NodeId) : StoreError.rename f.symm (.nodeNotFound (f id)) = .nodeNotFound id := by
    rw [StoreError.rename, f.symm_apply_apply]
  rw [linked, linked, source, target]
  cases c.node? e.source with
  | none => exact ⟨rfl, congrArg Except.error (back e.source)⟩
  | some first =>
      cases c.node? e.target with
      | none => exact ⟨rfl, congrArg Except.error (back e.target)⟩
      | some second =>
          have relation : (e.rename f).relation = e.relation := rfl
          simp only [Option.map_some, Node.rename_kind, relation]
          by_cases permitted : e.relation.permits first.kind second.kind = true
          · rw [if_pos permitted, if_pos permitted]
            exact ⟨(rename_link e).symm, congrArg Except.ok (rename_lacks e)⟩
          · rw [if_neg permitted, if_neg permitted]
            exact ⟨rfl, rfl⟩

theorem marking_renamed (ids : List NodeId) :
    ((c.rename f).marking (ids.map f)).2 = (c.marking ids).2.rename f ∧
      renamedAnswer f.symm .ok ((c.rename f).marking (ids.map f)).1 = (c.marking ids).1 := by
  have missing : (ids.map f).find? (fun id => ((c.rename f).node? id).isNone) =
      (ids.find? fun id => (c.node? id).isNone).map f := by
    rw [List.find?_map]
    congr 2
    funext id
    simp
  have image : {id | id ∈ ids.map f} = f '' {id | id ∈ ids} := by
    ext id
    exact List.mem_map
  rw [marking, marking, missing]
  cases ids.find? fun id => (c.node? id).isNone with
  | none =>
      refine ⟨?_, congrArg Except.ok ?_⟩
      · rw [image]
        exact (rename_mark _).symm
      · rw [image, rename_marked, ← Set.image_sdiff f.injective, NodeId.ncard_image]
  | some id =>
      refine ⟨rfl, ?_⟩
      change Except.error (StoreError.nodeNotFound (f.symm (f id))) = _
      rw [f.symm_apply_apply]

/-- Where the contents determine an answer, renamed contents give the renamed answer. -/
theorem Determined.rename {q : Call} {r : Except StoreError q.Reply} (valid : c.Valid)
    (mono : StrictMonoOn f c.live) (determined : Determined c q r c') :
    ∃ r', Determined (c.rename f) (q.rename f) r' (c'.rename f) ∧ q.translate f r' = r := by
  have answers {r' : Except StoreError (q.rename f).Reply} {c'' : Contents}
      (answered : (c.rename f).answer? (q.rename f) = some (r', c'')) (same : c'' = c'.rename f)
      (translated : q.translate f r' = r) :
      ∃ r', Determined (c.rename f) (q.rename f) r' (c'.rename f) ∧ q.translate f r' = r :=
    ⟨r', same ▸ answered, translated⟩
  cases q with
  | insertNode node => cases determined
  | loadGraph => cases determined
  | getNode id =>
      cases determined
      exact answers rfl rfl (about_renamed fun node _ => congrArg Except.ok node.rename_symm_rename)
  | nodeKind id =>
      cases determined
      exact answers rfl rfl (about_renamed fun node _ => congrArg Except.ok node.rename_kind)
  | findNode key =>
      cases determined
      refine answers rfl rfl (congrArg Except.ok ?_)
      rw [valid.rename_find?, Option.map_map, Equiv.symm_comp_self, Option.map_id, id_eq]
  | nodesOfKind kind =>
      cases determined
      refine answers rfl rfl (congrArg Except.ok ?_)
      rw [rename_ofKind]
      exact listed_renamed mono (ofKind_subset_live kind)
  | insertEdge e =>
      obtain ⟨rfl, rfl⟩ := Prod.mk.inj (Option.some.inj determined)
      obtain ⟨contents, answer⟩ := linked_renamed (c := c) (f := f) e
      exact answers rfl contents answer
  | targets id relation =>
      cases determined
      refine answers rfl rfl (about_renamed fun node _ => congrArg Except.ok ?_)
      rw [rename_targets]
      exact listed_renamed mono fun t mem => valid.target_live mem
  | sources id relation =>
      cases determined
      refine answers rfl rfl (about_renamed fun node _ => congrArg Except.ok ?_)
      rw [rename_sources]
      exact listed_renamed mono fun s mem => valid.source_live mem
  | isMarked id =>
      cases determined
      exact answers rfl rfl (about_renamed fun _ _ => congrArg Except.ok (rename_isMarked id))
  | markedNodes kind =>
      cases determined
      refine answers rfl rfl (congrArg Except.ok ?_)
      rw [rename_marked, rename_ofKind, ← Set.image_inter f.injective]
      exact listed_renamed mono (Set.inter_subset_left.trans valid.marked_live)
  | markNodes ids =>
      obtain ⟨rfl, rfl⟩ := Prod.mk.inj (Option.some.inj determined)
      obtain ⟨contents, answer⟩ := marking_renamed (c := c) (f := f) ids
      exact answers rfl contents answer
  | clearMarks =>
      cases determined
      refine answers rfl rename_unmarked.symm (congrArg Except.ok ?_)
      rw [rename_marked, NodeId.ncard_image]
  | removeKind kind =>
      cases determined
      refine answers rfl (rename_without kind).symm (congrArg Except.ok ?_)
      rw [rename_ofKind, NodeId.ncard_image]
  | reset =>
      cases determined
      exact answers rfl rename_empty.symm rfl

theorem Step.insert_renamed {d : Contents} {node : Node} {r r' : Except StoreError NodeId}
    (step : c.Step (.insertNode node) r c')
    (step' : (c.rename f).Step (.insertNode (node.rename f)) r' d)
    (same : ∀ id id', r = .ok id → r' = .ok id' → id' = f id) :
    (Call.insertNode node).translate f r' = r ∧ d = c'.rename f := by
  have taken (key : NodeKey) : ((c.rename f).keyed (key.rename f)).Nonempty ↔
      (c.keyed key).Nonempty := by
    rw [rename_keyed, Set.image_nonempty]
  rcases step with ⟨key, own, held, rfl, rfl⟩ | ⟨unkeyed, id, -, rfl, rfl⟩
  · have own' : (node.rename f).key? = some (key.rename f) := by
        rw [Node.rename_key?, own, Option.map_some]
    rcases step' with ⟨key', own'', -, rfl, rfl⟩ | ⟨unkeyed, -⟩
    · obtain rfl : key' = key.rename f := Option.some.inj (own''.symm.trans own')
      refine ⟨?_, rfl⟩
      change Except.error (StoreError.uniqueViolation (NodeKey.renameText f.symm _)) = _
      rw [NodeKey.renameText_canonical, NodeKey.rename_symm_rename]
    · exact absurd (unkeyed _ own') ((taken key).mpr held).ne_empty
  · rcases step' with ⟨key', own', held, -⟩ | ⟨-, id', -, rfl, rfl⟩
    · rw [Node.rename_key?, Option.map_eq_some_iff] at own'
      obtain ⟨key, own, rfl⟩ := own'
      exact absurd (unkeyed key own) ((taken key).mp held).ne_empty
    · rw [same id id' rfl rfl]
      refine ⟨?_, (rename_insert id node).symm⟩
      change Except.ok (f.symm (f id)) = _
      rw [f.symm_apply_apply]

end Contents

theorem Entries.Ascending.rename {entries : Entries} {edges : List Edge}
    (ascending : entries.Ascending)
    (mono : StrictMonoOn f (entries.contents edges).live) :
    Ascending (entries.map (renameEntry f)) := by
  have live {id : NodeId} (mem : id ∈ entries.map Prod.fst) :
      id ∈ (entries.contents edges).live := by
    rw [mem_contents_live, Option.isSome_iff_ne_none, Ne, lookup_isNone]
    exact not_not.mpr mem
  have keys : (entries.map (renameEntry f)).map Prod.fst = (entries.map Prod.fst).map f := by
    rw [List.map_map, List.map_map]
    rfl
  rw [Ascending, keys, List.pairwise_map]
  exact ascending.imp_of_mem fun ha hb lt => mono (live ha) (live hb) lt

theorem Entries.lookup_renamed (entries : Entries) (id : NodeId) :
    (entries.map (renameEntry f)).lookup id =
      (entries.lookup (f.symm id)).map fun record =>
        { record with node := record.node.rename f } := by
  induction entries with
  | nil => rfl
  | cons entry rest ih =>
      have here : id = (renameEntry f entry).1 ↔ f.symm id = entry.1 := f.symm_apply_eq.symm
      rw [List.map_cons, lookup_cons, lookup_cons, ih]
      by_cases same : f.symm id = entry.1
      · rw [if_pos same, if_pos (here.mpr same)]
        rfl
      · rw [if_neg same, if_neg fun h => same (here.mp h)]

theorem Edge.mem_renamed {edges : List Edge} {e : Edge} :
    e ∈ edges.map (rename f) ↔
      ⟨f.symm e.source, e.relation, f.symm e.target⟩ ∈ edges := by
  rw [List.mem_map]
  constructor
  · rintro ⟨d, mem, rfl⟩
    simpa [rename] using mem
  · intro mem
    exact ⟨_, mem, by simp [rename]⟩

theorem Entries.contents_renamed (entries : Entries) (edges : List Edge) :
    contents (entries.map (renameEntry f)) (edges.map (Edge.rename f)) =
      (entries.contents edges).rename f := by
  refine Contents.ext (funext fun id => ?_) (Set.ext fun e => Edge.mem_renamed)
    (Set.ext fun id => ?_)
  · rw [contents_node?, lookup_renamed, Option.map_map, Contents.rename_node?_apply,
      contents_node?, Option.map_map]
    rfl
  · rw [mem_contents_marked, lookup_renamed, Contents.mem_rename_marked, mem_contents_marked]
    cases entries.lookup (f.symm id) <;> simp

theorem Edge.Ordered.rename {β : Type} [LinearOrder β] {label : Relation → β}
    {edges : List Edge}
    {ids : Set NodeId} (ordered : Edge.Ordered label edges) (mono : StrictMonoOn f ids)
    (within : ∀ e ∈ edges, e.source ∈ ids ∧ e.target ∈ ids) :
    Edge.Ordered label (edges.map (Edge.rename f)) := by
  rw [Edge.Ordered, List.pairwise_map]
  refine ordered.imp_of_mem fun {a b} ha hb lt => ?_
  rw [place_lt] at lt ⊢
  have source : f a.source < f b.source ↔ a.source < b.source :=
    mono.lt_iff_lt (within a ha).1 (within b hb).1
  have target : f a.target < f b.target ↔ a.target < b.target :=
    mono.lt_iff_lt (within a ha).2 (within b hb).2
  simpa [Edge.rename, source, target] using lt

namespace DependencyGraph

/-- A graph that was loaded under other identifiers is the graph that holds the
same under the own ones. -/
theorem Compact.rebuilt {g h : DependencyGraph} (compact : g.Compact) (valid : h.Valid)
    (holds : h.contents = g.contents.rename f) (mono : StrictMonoOn f g.contents.live) :
    rebuilt f.symm h = .ok g := by
  have same : h.contents = Entries.contents (g.nodes.map (Entries.renameEntry f))
      (g.edges.map (Edge.rename f)) := holds.trans (Entries.contents_renamed g.nodes g.edges).symm
  have nodes : h.nodes = g.nodes.map (Entries.renameEntry f) :=
    Entries.eq_of_contents valid.ascending (compact.ascending.rename mono) same
  have edges : h.edges = g.edges.map (Edge.rename f) := by
    refine eq_of_ascending (Edge.place Relation.rank) valid.ordered
      (compact.ordered.rename mono ?_) ?_
    · exact fun e mem => ⟨compact.contents.source_live mem, compact.contents.target_live mem⟩
    · exact Set.ext_iff.mp (congrArg Contents.edges same)
  have entryBack : Entries.renameEntry f.symm ∘ Entries.renameEntry f = id := by
    funext entry
    simp [Entries.renameEntry]
  have edgeBack : Edge.rename f.symm ∘ Edge.rename f = id := by
    funext e
    simp [Edge.rename]
  rw [DependencyGraph.rebuilt, nodes, edges, List.map_map, List.map_map, entryBack, edgeBack,
    List.map_id, List.map_id, compact.ofParts_self]
  rfl

end DependencyGraph

end BlastRadius
