import BlastRadius.Proofs.Parity.Agreement
import BlastRadius.Proofs.Parity.Ingestion

/-!
The operations that record calls and bindings do alike. Their targets are linked in the order of
identifiers, which differs; the edges that are there afterwards do not.
-/

namespace BlastRadius

variable {c : Contents} {f : Renaming}

theorem NodeId.listed_singleton (id : NodeId) : listed {id} = [id] :=
  (eq_listed (List.pairwise_singleton _ id) fun _ => by simp).symm

namespace Contents

/-- The nodes to which the schema permits edges of a relation from a kind. -/
def allowed (c : Contents) (a : NodeKind) (relation : Relation) : Set NodeId :=
  {t | ∃ b, t ∈ c.ofKind b ∧ relation.permits a b = true}

theorem rename_allowed (a : NodeKind) (relation : Relation) :
    (c.rename f).allowed a relation = f '' c.allowed a relation := by
  ext t
  rw [Set.mem_image_equiv]
  simp only [allowed, rename_ofKind, Set.mem_image_equiv, Set.mem_ofPred_eq]

theorem allowed_insert {id : NodeId} {node : Node} (fresh : c.node? id = none) {ids : Set NodeId}
    {kind : NodeKind} {relation : Relation} (allowed : ids ⊆ c.allowed kind relation) :
    ids ⊆ (c.insert id node).allowed kind relation := by
  intro t mem
  obtain ⟨other, own, permitted⟩ := allowed mem
  exact ⟨other, (mem_ofKind_insert fresh).mpr (Or.inl own), permitted⟩

def linkAll (c : Contents) (source : NodeId) (relation : Relation) (ids : Set NodeId) : Contents :=
  { c with edges := c.edges ∪ {e | e.source = source ∧ e.relation = relation ∧
    e.target ∈ ids} }

theorem linkAll_empty (source : NodeId) (relation : Relation) :
    c.linkAll source relation ∅ = c := by
  refine Contents.ext rfl ?_ rfl
  simp [linkAll]

theorem linkAll_link (source t : NodeId) (relation : Relation) (ids : Set NodeId) :
    (c.link ⟨source, relation, t⟩).linkAll source relation ids =
      c.linkAll source relation (Set.insert t ids) := by
  refine Contents.ext rfl (Set.ext fun e => ?_) rfl
  obtain ⟨s, r, u⟩ := e
  simp only [linkAll, link, Set.insert, Set.mem_union, Set.mem_ofPred_eq, Edge.mk.injEq]
  tauto

theorem link_eq_linkAll (source t : NodeId) (relation : Relation) :
    c.link ⟨source, relation, t⟩ = c.linkAll source relation {t} := by
  rw [← linkAll_empty (c := c.link ⟨source, relation, t⟩) source relation, linkAll_link]
  exact congrArg (c.linkAll source relation) (insert_empty_eq t)

theorem Valid.targets_linked (valid : c.Valid) {id : NodeId} (fresh : c.node? id = none)
    (node : Node)
    (relation : Relation) (ids : Set NodeId) (other : NodeId) :
    ((c.insert id node).linkAll id relation ids).targets other relation =
      if other = id then ids else c.targets other relation := by
  ext t
  by_cases same : other = id
  · rw [if_pos same, same]
    refine ⟨?_, fun mem => Or.inr ⟨rfl, rfl, mem⟩⟩
    rintro (edge | ⟨_, _, mem⟩)
    · exact absurd (valid.source_live edge) (not_mem_live.mpr fresh)
    · exact mem
  · rw [if_neg same]
    refine ⟨?_, Or.inl⟩
    rintro (edge | ⟨same', _⟩)
    · exact edge
    · exact absurd same' same

theorem rename_linkAll (source : NodeId) (relation : Relation) (ids : Set NodeId) :
    (c.linkAll source relation ids).rename f =
      (c.rename f).linkAll (f source) relation (f '' ids) := by
  refine Contents.ext rfl (Set.ext fun e => ?_) rfl
  simp only [linkAll, mem_rename_edges, Set.mem_union, Set.mem_ofPred_eq, Equiv.symm_apply_eq,
    Set.mem_image_equiv]

theorem Valid.linkAll (valid : c.Valid) {source : NodeId} {relation : Relation} {ids : Set NodeId}
    {a : NodeKind} (own : source ∈ c.ofKind a) (targets : ids ⊆ c.allowed a relation) :
    (c.linkAll source relation ids).Valid where
  permitted := by
    rintro e (old | ⟨rfl, rfl, mem⟩)
    · exact valid.permitted e old
    · obtain ⟨s, hs, rfl⟩ := own
      obtain ⟨b, ⟨t, ht, rfl⟩, permitted⟩ := targets mem
      exact ⟨s, t, hs, ht, permitted⟩
  marked_live := valid.marked_live
  key_unique := valid.key_unique

theorem Tidy.linkAll (tidy : c.Tidy) {source : NodeId} {relation : Relation} {ids : Set NodeId}
    {a : NodeKind} (own : source ∈ c.ofKind a) (targets : ids ⊆ c.allowed a relation)
    (plain : relation ≠ .caller ∧ relation ≠ .threatens) :
    (c.linkAll source relation ids).Tidy where
  valid := tidy.valid.linkAll own targets
  owners := tidy.owners
  records id := (tidy.records id).anti fun r mem => by
    rcases mem with old | ⟨_, same, _⟩
    · exact old
    · exact absurd same.symm plain.1
  threats id := (tidy.threats id).anti fun t mem => by
    rcases mem with old | ⟨_, same, _⟩
    · exact old
    · exact absurd same.symm plain.2
  identities := tidy.identities

end Contents

theorem leads_linkAll {source : NodeId} {relation : Relation} {l : List NodeId} {a : NodeKind}
    (own : source ∈ c.ofKind a) (targets : {t | t ∈ l} ⊆ c.allowed a relation) :
      ∃ added, Leads
      (StoreProgram.each (fun t => StoreProgram.call (.insertEdge ⟨source, relation, t⟩)) l).run
        c
      (.ok added) (c.linkAll source relation {t | t ∈ l}) := by
  induction l generalizing c with
  | nil =>
      rw [show {t : NodeId | t ∈ ([] : List NodeId)} = ∅ by simp, Contents.linkAll_empty]
      exact ⟨[], .pure []⟩
  | cons t rest ih =>
      obtain ⟨s, hs, rfl⟩ := id own
      obtain ⟨b, ⟨u, hu, rfl⟩, permitted⟩ := targets List.mem_cons_self
      have linked := Contents.linked_of_permits (e := ⟨source, relation, t⟩) hs hu permitted
      obtain ⟨added, others⟩ := ih (c := c.link ⟨source, relation, t⟩) own fun v mem =>
        targets (List.mem_cons_of_mem t mem)
      rw [Contents.linkAll_link, show Set.insert t {v | v ∈ rest} = {v | v ∈ t :: rest} by
        ext v
        simp [Set.insert]] at others
      exact ⟨c.lacks ⟨source, relation, t⟩ :: added,
        (Leads.call (q := .insertEdge ⟨source, relation, t⟩) (congrArg some linked)).bind
          (others.bind (.pure _))⟩

def CallNetwork.caller : CallNetwork → NodeKind
  | code => .symbol
  | network => .endpoint

theorem CallNetwork.permits_caller (net : CallNetwork) :
    Relation.caller.permits net.record.kind net.caller = true := by
  cases net <;> rfl

theorem CallNetwork.permits_callees (net : CallNetwork) :
    Relation.callees.permits net.record.kind net.caller = true := by
  cases net <;> rfl

theorem Contents.Valid.caller_record (valid : c.Valid) {net : CallNetwork} {a r : NodeId}
    (own : a ∈ c.ofKind net.caller) (record : r ∈ c.sources a .caller) :
    r ∈ c.ofKind net.record.kind := by
  obtain ⟨kind, target, hr, ha, permitted⟩ := valid.kinds record
  have schema : ∀ p ∈ Relation.permitted, p.1 = .caller → p.2.2 = net.caller →
      p.2.1 = net.record.kind := by
    cases net <;> decide
  exact schema _ permitted rfl (Contents.ofKind_eq ha own) ▸ hr

theorem reads_existingDependency (valid : c.Valid) {net : CallNetwork} {a : NodeId}
    (own : a ∈ c.ofKind net.caller) :
    Reads (Inventory.existingDependency net a) c (NodeId.listed (c.sources a .caller)).head? := by
  refine (Reads.sources (Contents.ofKind_subset_live _ own) .caller).bind ?_
  have first (l : List NodeId) : l.find? (fun _ => true) = l.head? := by
    cases l <;> rfl
  rw [← first]
  refine Reads.first? fun r mem => ?_
  refine (Reads.nodeKind (valid.caller_record own (NodeId.mem_listed.mp mem))).bind ?_
  rw [beq_self_eq_true]
  exact .pure true

theorem agreeLists_ascending (f : Renaming) (l : List NodeId) :
    AgreeLists f (NodeId.ascending l) (NodeId.ascending (l.map f)) := by
  rw [NodeId.ascending_eq_listed, NodeId.ascending_eq_listed,
    show {id | id ∈ l.map f} = f '' {id | id ∈ l} from Set.ext fun _ => List.mem_map]
  exact NodeId.listed_image f _

namespace Alike

open Inventory

theorem twins_eq_map {kind : NodeKind} {xs ys : List NodeId}
    (twins : List.Forall₂ (Twin kind c f) xs ys) :
    ys = xs.map f ∧ ∀ x ∈ xs, x ∈ c.ofKind kind := by
  induction twins with
  | nil => exact ⟨rfl, fun x mem => absurd mem List.not_mem_nil⟩
  | @cons x y xs ys twin _ ih =>
      obtain ⟨own, rfl⟩ := twin
      refine ⟨by rw [ih.1, List.map_cons], fun z mem => ?_⟩
      rcases List.mem_cons.mp mem with rfl | mem
      · exact own
      · exact ih.2 z mem

theorem linkAll {source : NodeId} {l l' : List NodeId} {a : NodeKind} (relation : Relation)
    (own : source ∈ c.ofKind a) (targets : {t | t ∈ l} ⊆ c.allowed a relation)
    (lists : AgreeLists f l l') (plain : relation ≠ .caller ∧ relation ≠ .threatens) :
    Alike c f
      (StoreProgram.each (fun t => StoreProgram.call (.insertEdge ⟨source, relation, t⟩)) l)
      (StoreProgram.each (fun t => StoreProgram.call (.insertEdge ⟨f source, relation, t⟩)) l')
      fun _ f₁ _ _ => f₁ = f := by
  have image : {t | t ∈ l'} = f '' {t | t ∈ l} := by
    ext t
    exact lists.mem_iff.trans List.mem_map
  refine .leads fun tidy _ => ?_
  obtain ⟨added, left⟩ := leads_linkAll own targets
  have own' : f source ∈ (c.rename f).ofKind a := by
    rw [Contents.rename_ofKind]
    exact Set.mem_image_of_mem f own
  have targets' : {t | t ∈ l'} ⊆ (c.rename f).allowed a relation := by
    rw [image, Contents.rename_allowed]
    exact Set.image_mono targets
  obtain ⟨added', right⟩ := leads_linkAll own' targets'
  rw [image, ← Contents.rename_linkAll] at right
  exact ⟨_, _, _, left, right, tidy.linkAll own targets plain, id, rfl⟩

theorem existingDependency {net : CallNetwork} {a b : NodeId} (caller : Twin net.caller c f a b) :
    Alike c f (Inventory.existingDependency net a) (Inventory.existingDependency net b)
      fun c₁ f₁ x y => c₁ = c ∧ f₁ = f ∧ y = x.map f ∧
        ((x = none ∧ c.sources a .caller = ∅) ∨
        ∃ r ∈ c.ofKind net.record.kind, x = some r) := by
  obtain ⟨own, rfl⟩ := caller
  refine .reads fun tidy valid => ?_
  have own' : f a ∈ (c.rename f).ofKind net.caller := by
    rw [Contents.rename_ofKind]
    exact Set.mem_image_of_mem f own
  have left := reads_existingDependency tidy.valid own
  have right := reads_existingDependency valid own'
  rw [Contents.rename_sources] at right
  refine ⟨_, _, left, right, ?_⟩
  rcases (tidy.records a).eq_empty_or_singleton with none | ⟨r, one⟩
  · rw [none, Set.image_empty, NodeId.listed_eq_nil.mpr rfl]
    exact ⟨rfl, Or.inl ⟨rfl, rfl⟩⟩
  · rw [one, Set.image_singleton, NodeId.listed_singleton, NodeId.listed_singleton]
    exact ⟨rfl, Or.inr ⟨r, tidy.valid.caller_record own (one ▸ rfl), rfl⟩⟩

theorem ensureDependency {net : CallNetwork} {a b : NodeId} (caller : Twin net.caller c f a b) :
    Alike c f (Inventory.ensureDependency net a) (Inventory.ensureDependency net b)
      (Twin net.record.kind) := by
  refine (existingDependency caller).bind fun c₁ f₁ x y grown found => ?_
  obtain ⟨rfl, rfl, rfl, ⟨rfl, free⟩ | ⟨r, record, rfl⟩⟩ := found
  · have insertable : Insertable c₁ net.record := by
      cases net <;> exact ⟨nofun, nofun, nofun⟩
    have plain : net.record.rename f₁ = net.record := by
      cases net <;> rfl
    have inserted := insertNode (f := f₁) insertable
    rw [plain] at inserted
    refine inserted.bind fun c₂ f₂ r r' grown' new => ?_
    obtain ⟨rfl, _, rfl⟩ := new
    have record : Twin net.record.kind (c₁.insert r net.record) f₂ r (f₂ r) :=
      ⟨⟨net.record, Contents.insert_node?_self r net.record, rfl⟩, rfl⟩
    refine (link .caller record (caller.grown (grown.trans grown'))
      net.permits_caller (fun _ => free) nofun).bind fun c₃ f₃ _ _ grown'' _ => ?_
    exact .pure (record.grown grown'')
  · exact .pure ⟨record, rfl⟩

theorem linkDependency {net : CallNetwork} {a b : NodeId} {xs ys : List NodeId}
    (caller : Twin net.caller c f a b) (callees : List.Forall₂ (Twin net.caller c f) xs ys) :
    Alike c f (Inventory.linkDependency net a xs) (Inventory.linkDependency net b ys)
      fun _ f₁ x y => x.Agree f₁ y := by
  rw [Inventory.linkDependency, Inventory.linkDependency]
  cases callees with
  | nil => exact .pure ⟨caller.2, rfl, .refl []⟩
  | @cons x y xs ys first rest =>
      have callees := List.Forall₂.cons first rest
      refine (atomically (R := Twin net.record.kind) ?_).bind fun c₁ f₁ r r' grown record => ?_
      · refine (ensureDependency caller).bind fun c₁ f₁ r r' grown record => ?_
        have twins : List.Forall₂ (Twin net.caller c₁ f₁) (x :: xs) (y :: ys) :=
          callees.imp fun _ _ twin => twin.grown grown
        obtain ⟨same, own⟩ := twins_eq_map twins
        obtain ⟨kind, rfl⟩ := id record
        refine (linkAll .callees kind ?_ (same ▸ agreeLists_ascending f₁ (x :: xs))
          ⟨nofun, nofun⟩).bind fun c₂ f₂ _ _ grown' _ => .pure (record.grown grown')
        intro t mem
        exact ⟨net.caller, own t (NodeId.mem_ascending.mp mem), net.permits_callees⟩
      · have twins : List.Forall₂ (Twin net.caller c₁ f₁) (x :: xs) (y :: ys) :=
          callees.imp fun _ _ twin => twin.grown grown
        exact .pure ⟨(caller.grown grown).2, congrArg some record.2,
          (twins_eq_map twins).1 ▸ agreeLists_ascending f₁ (x :: xs)⟩

theorem linkOutcomes (net : CallNetwork) {a b : NodeId} {x y : BlastRadius.Outcomes NodeId}
    (caller : Twin net.caller c f a b) (outcomes : Outcomes (Twin net.caller c f) x y) :
    Alike c f (Inventory.linkOutcomes net a x) (Inventory.linkOutcomes net b y)
      fun _ f₁ x y => x.Agree f₁ y := by
  refine (linkDependency caller outcomes.successes).ofStore.bind
    fun c₁ f₁ l l' grown agree => ?_
  have outcomes' : Outcomes (Twin net.caller c₁ f₁) x y :=
    ⟨outcomes.successes.imp fun _ _ twin => twin.grown grown, outcomes.failures⟩
  refine (ofResult outcomes').bind fun c₂ f₂ _ _ _ same => .pure ?_
  exact same ▸ agree

theorem addCalls (caller : String) (callees : List String) :
    Alike c f (Inventory.addCalls caller callees) (Inventory.addCalls caller callees)
      fun _ f₁ x y => x.Agree f₁ y := by
  refine (findSymbol caller).bind fun c₁ f₁ a b _ twin => ?_
  refine (collect (R := Twin .symbol) (stable_twin .symbol a b) (stable_twin .symbol)
    (fun _ callee _ => findSymbol callee) twin ⟨.nil, rfl⟩).bind
      fun c₂ f₂ x y grown outcomes => ?_
  exact linkOutcomes .code (twin.grown grown) outcomes

theorem addNetworkCalls (caller : EndpointRef) (callees : List EndpointRef) :
    Alike c f (Inventory.addNetworkCalls caller callees) (Inventory.addNetworkCalls caller callees)
      fun _ f₁ x y => x.Agree f₁ y := by
  refine (upsertEndpoint caller).bind fun c₁ f₁ a b _ twin => ?_
  refine (collect (R := Twin .endpoint) (stable_twin .endpoint a b) (stable_twin .endpoint)
    (fun _ callee _ => upsertEndpoint callee) twin ⟨.nil, rfl⟩).bind
      fun c₂ f₂ x y grown outcomes => ?_
  exact linkOutcomes .network (twin.grown grown) outcomes

end Alike

end BlastRadius
