import BlastRadius.Inventory.Fixture
import BlastRadius.Proofs.Parity.Alike

/-!
The steps of which operations are made do alike: insertions, merges, look-ups, and loops over the
targets of a request. A new node takes an unused identifier on either side, and the renaming is
changed to join the two.
-/

namespace BlastRadius

open StoreProgram (call mergeNode)

variable {ε α β τ : Type} {c : Contents} {f : Renaming}

/-- Identifiers of one node of a kind, on either side. -/
def Twin (kind : NodeKind) (c : Contents) (f : Renaming) (a b : NodeId) : Prop :=
  a ∈ c.ofKind kind ∧ b = f a

/-- What stays true when contents grow. -/
def Stable (I : Contents → Renaming → Prop) : Prop :=
  ∀ {c f c₁ f₁}, Grown c f c₁ f₁ → I c f → I c₁ f₁

theorem stable_const (p : Prop) : Stable fun _ _ => p := fun _ h => h

theorem Twin.grown {kind : NodeKind} {a b : NodeId} {c₁ : Contents} {f₁ : Renaming}
    (twin : Twin kind c f a b) (grown : Grown c f c₁ f₁) : Twin kind c₁ f₁ a b :=
  ⟨grown.ofKind twin.1, twin.2.trans (grown.same a (Contents.ofKind_subset_live _ twin.1)).symm⟩

theorem stable_twin (kind : NodeKind) (a b : NodeId) : Stable fun c f => Twin kind c f a b :=
  fun grown twin => twin.grown grown

/-- The renaming that takes a new identifier to another. -/
def Renaming.join (f : Renaming) (a b : NodeId) : Renaming := f.trans (Equiv.swap (f a) b)

theorem Renaming.join_self (f : Renaming) (a b : NodeId) : f.join a b a = b :=
  Equiv.swap_apply_left (f a) b

theorem Renaming.join_of_live {a b : NodeId} (freshA : c.node? a = none)
    (freshB : (c.rename f).node? b = none) {id : NodeId} (live : id ∈ c.live) :
    f.join a b id = f id := by
  have neA : f id ≠ f a := fun same => Contents.not_mem_live.mpr freshA
      (f.injective same ▸ live)
  have neB : f id ≠ b := by
    rintro rfl
    refine Contents.not_mem_live.mpr freshB ?_
    rw [Contents.rename_live]
    exact Set.mem_image_of_mem f live
  exact Equiv.swap_apply_of_ne_of_ne neA neB

/-- A node that may be inserted: its key is free, its component exists, and if it is a
vulnerability, it is the first with its identity. -/
structure Insertable (c : Contents) (node : Node) : Prop where
  free : ∀ key, node.key? = some key → c.keyed key = ∅
  owner : ∀ name owner, node = .endpoint name owner → owner ∈ c.ofKind .component
  identity : ∀ identity, node = .vulnerability identity →
    ∀ other, c.node? other ≠ some (.vulnerability identity)

theorem step_insertNode_of_free {node : Node} {x : Except StoreError NodeId} {c' : Contents}
    (free : ∀ key, node.key? = some key → c.keyed key = ∅)
    (step : c.Step (.insertNode node) x c') :
    ∃ id, c.node? id = none ∧ x = .ok id ∧ c' = c.insert id node := by
  rcases step with ⟨key, own, taken, _⟩ | ⟨_, inserted⟩
  · exact absurd (free key own) taken.ne_empty
  · exact inserted

theorem runs_mergeNode {node : Node} {key : NodeKey} (keyed : node.key? = some key)
    (valid : c.Valid)
    {x : Except StoreError (NodeId × Bool)} {c' : Contents}
    (runs : (mergeNode node).run.Runs Contents.Step c x c') :
    (∃ id ∈ c.keyed key, x = .ok (id, false) ∧ c' = c) ∨
    (c.keyed key = ∅ ∧ ∃ id, (call (.insertNode node)).run.Runs Contents.Step c
      (.ok id) c' ∧
      x = .ok (id, true)) := by
  rw [mergeNode, keyed] at runs
  obtain ⟨found, m, look, rest⟩ := runs_exceptT_bind.mp runs
  obtain ⟨answer, same⟩ := (Reads.findNode key).unique_of_runs look
  rw [answer, same] at rest
  cases known : c.find? key with
  | some id =>
      rw [known] at rest
      obtain ⟨rfl, rfl⟩ := rest
      exact Or.inl ⟨id, valid.find?_eq_some.mp known, rfl, rfl⟩
  | none =>
      have free := Contents.find?_eq_none.mp known
      rw [known] at rest
      obtain ⟨inserted, m, inner, rest⟩ := (Program.runs_bind (p := ExceptT.run (do
        let id ← call (.insertNode node)
        return (id, true)))).mp rest
      obtain ⟨answer, m, step, inner⟩ := runs_exceptT_bind.mp inner
      obtain ⟨id, fresh, rfl, rfl⟩ := step_insertNode_of_free (fun key' own => by
        rw [keyed, Option.some.injEq] at own
        exact own ▸ free) (runs_storeCall.mp step)
      obtain ⟨rfl, rfl⟩ := inner
      obtain ⟨rfl, rfl⟩ := rest
      exact Or.inr ⟨free, id, step, rfl⟩

namespace Alike

theorem insertNode {node : Node} (insertable : Insertable c node) :
    Alike c f (call (.insertNode node)) (call (.insertNode (node.rename f))) fun c₁ f₁ a b =>
      b = f₁ a ∧ c.node? a = none ∧ c₁ = c.insert a node := by
  intro tidy x c₁ y c₂ ran ran'
  have free' (key : NodeKey) (own : (node.rename f).key? = some key) :
      (c.rename f).keyed key = ∅ := by
    rw [Node.rename_key?, Option.map_eq_some_iff] at own
    obtain ⟨key, own, rfl⟩ := own
    rw [Contents.rename_keyed, insertable.free key own, Set.image_empty]
  obtain ⟨a, freshA, rfl, rfl⟩ :=
    step_insertNode_of_free insertable.free (runs_storeCall.mp ran)
  obtain ⟨b, freshB, rfl, rfl⟩ := step_insertNode_of_free free' (runs_storeCall.mp ran')
  have same {id : NodeId} (live : id ∈ c.live) : f.join a b id = f id :=
    Renaming.join_of_live freshA freshB live
  refine ⟨f.join a b, ?_, tidy.insert freshA insertable.free insertable.owner insertable.identity,
    ⟨fun found => Contents.insert_node?_of_some freshA found, fun id live => same live⟩,
    (f.join_self a b).symm, freshA, rfl⟩
  rw [Contents.rename_insert, f.join_self, tidy.rename_congr fun id live => same live,
    Node.rename_congr fun name owner h => same
      (Contents.ofKind_subset_live _ (insertable.owner name owner h))]

theorem mergeNode (node : Node) {key : NodeKey} (keyed : node.key? = some key)
    (owner : ∀ name owner, node = .endpoint name owner → owner ∈ c.ofKind .component)
    (plain : node.kind ≠ .vulnerability) :
    Alike c f (StoreProgram.mergeNode node) (StoreProgram.mergeNode (node.rename f))
      fun c₁ f₁ a b => Twin node.kind c₁ f₁ a.1 b.1 ∧ b.2 = a.2 := by
  intro tidy x c₁ y c₂ ran ran'
  have keyed' : (node.rename f).key? = some (key.rename f) := by
    rw [Node.rename_key?, keyed, Option.map_some]
  have own {id : NodeId} (mem : id ∈ c.keyed key) : id ∈ c.ofKind node.kind := by
    obtain ⟨other, found, key'⟩ := mem
    exact ⟨other, found, by rw [← Node.kind_of_key? key', Node.kind_of_key? keyed]⟩
  rcases runs_mergeNode keyed tidy.valid ran with ⟨a, mem, rfl, rfl⟩ |
    ⟨free, a, inserted, rfl⟩
  · have mem' : f a ∈ (c₁.rename f).keyed (key.rename f) := by
      rw [Contents.rename_keyed]
      exact Set.mem_image_of_mem f mem
    rcases runs_mergeNode keyed' (tidy.valid.rename f) ran' with
      ⟨b, memB, rfl, rfl⟩ | ⟨free, _⟩
    · obtain rfl := (tidy.valid.rename f).key_unique _ mem' memB
      exact ⟨f, rfl, tidy, .refl _ _, ⟨own mem, rfl⟩, rfl⟩
    · exact absurd mem' (free ▸ Set.notMem_empty _)
  · rcases runs_mergeNode keyed' (tidy.valid.rename f) ran' with
      ⟨b, memB, _⟩ | ⟨_, b, inserted', rfl⟩
    · rw [Contents.rename_keyed, free, Set.image_empty] at memB
      exact absurd memB (Set.notMem_empty b)
    · have insertable : Insertable c node := by
        refine ⟨fun key' own => ?_, owner, fun identity same =>
          absurd (by rw [same]; rfl) plain⟩
        rw [keyed, Option.some.injEq] at own
        exact own ▸ free
      obtain ⟨f₁, same, tidy₁, grown, rfl, _, rfl⟩ :=
        insertNode insertable tidy _ _ _ _ inserted inserted'
      exact ⟨f₁, same, tidy₁, grown,
        ⟨⟨node, Contents.insert_node?_self a node, rfl⟩, rfl⟩, rfl⟩

theorem insertEdge {e : Edge} {a b : NodeKind} (source : e.source ∈ c.ofKind a)
    (target : e.target ∈ c.ofKind b) (permitted : e.relation.permits a b = true)
    (caller : e.relation = .caller → c.sources e.target .caller = ∅)
    (threat : e.relation = .threatens → c.targets e.source .threatens = ∅) :
    Alike c f (call (.insertEdge e)) (call (.insertEdge (e.rename f))) fun c₁ f₁ x y =>
      y = x ∧ c₁ = c.link e ∧ f₁ = f := by
  refine .leads fun tidy valid => ?_
  obtain ⟨s, hs, rfl⟩ := source
  obtain ⟨t, ht, rfl⟩ := target
  have linked := Contents.linked_of_permits hs ht permitted
  have linked' := Contents.linked_of_permits (e := e.rename f)
    (Contents.rename_node?_eq_some hs) (Contents.rename_node?_eq_some ht)
    (by simpa [Edge.rename] using permitted)
  rw [← Contents.rename_link, Contents.rename_lacks] at linked'
  exact ⟨.ok (c.lacks e), .ok (c.lacks e), c.link e, Leads.call (congrArg some linked),
    Leads.call (congrArg some linked'), tidy.link hs ht permitted caller threat, id, rfl,
      rfl, rfl⟩

theorem findAs (key : NodeKey) (shown : String) :
    Alike c f (ImpactProgram.findAs key shown) (ImpactProgram.findAs (key.rename f) shown)
      (Twin key.kind) := by
  refine .leads fun tidy valid => ?_
  have look := Leads.ofStore (Reads.findNode (c := c) key)
  have look' := Leads.ofStore (Reads.findNode (c := c.rename f) (key.rename f))
  rw [tidy.valid.rename_find?] at look'
  cases found : c.find? key with
  | none =>
      rw [found] at look look'
      refine ⟨.error (.notFound key.kind shown), .error (.notFound key.kind shown), c,
        look.bind (.throw _), ?_, tidy, id, rfl⟩
      rw [← NodeKey.rename_kind (f := f) key]
      exact look'.bind (.throw _)
  | some a =>
      rw [found] at look look'
      obtain ⟨node, known, own⟩ := tidy.valid.find?_eq_some.mp found
      exact ⟨.ok a, .ok (f a), c, look.bind (.pure _), look'.bind (.pure _), tidy, id,
        ⟨node, known, (Node.kind_of_key? own).symm⟩, rfl⟩

theorem findArtifact (key : NodeKey) (plain : key.rename f = key) :
    Alike c f (ImpactProgram.findArtifact key) (ImpactProgram.findArtifact key)
      (Twin key.kind) := by
  have found := findAs (c := c) (f := f) key (toString key)
  rwa [plain] at found

theorem findSymbol (identity : String) :
    Alike c f (ImpactProgram.findSymbol identity) (ImpactProgram.findSymbol identity)
      (Twin .symbol) :=
  findAs (.symbol identity) identity

theorem require (holds : Bool) (reason : String) :
    Alike c f (ImpactProgram.require holds reason) (ImpactProgram.require holds reason)
      fun _ _ _ _ => True := by
  rw [ImpactProgram.require]
  split
  · exact .pure trivial
  · exact .throw _

variable {I : Contents → Renaming → Prop} {R : Contents → Renaming → α → β → Prop}

theorem each {p : τ → StoreProgram α} {q : τ → StoreProgram β} {l : List τ}
    (stable : Stable I)
    (grown : ∀ a b, Stable fun c f => R c f a b)
    (step : ∀ {c f}, I c f → ∀ t ∈ l, Alike c f (p t) (q t) R) (start : I c f) :
    Alike c f (StoreProgram.each p l) (StoreProgram.each q l) fun c₁ f₁ xs ys =>
      List.Forall₂ (R c₁ f₁) xs ys := by
  induction l generalizing c f with
  | nil => exact .pure .nil
  | cons t rest ih =>
      refine (step start t List.mem_cons_self).bind fun c₁ f₁ a b grew related => ?_
      refine (ih (fun holds u mem => step holds u (List.mem_cons_of_mem t mem))
        (stable grew start)).bind fun c₂ f₂ xs ys grew' others => ?_
      exact .pure (.cons (grown a b grew' related) others)

theorem forEach {p q : τ → ImpactProgram α} {l : List τ}
    (step : ∀ {c f}, ∀ t ∈ l, Alike c f (p t) (q t) fun _ _ _ _ => True) :
    Alike c f (Inventory.forEach p l) (Inventory.forEach q l) fun _ _ _ _ => True := by
  induction l generalizing c f with
  | nil => exact .pure trivial
  | cons t rest ih =>
      refine (step t List.mem_cons_self).bind fun _ _ _ _ _ _ => ?_
      exact ih fun u mem => step u (List.mem_cons_of_mem t mem)

/-- Outcomes with values that correspond and the same failures. -/
structure Outcomes (R : α → β → Prop) (x : BlastRadius.Outcomes α)
    (y : BlastRadius.Outcomes β) :
    Prop where
  successes : List.Forall₂ R x.successes y.successes
  failures : y.failures = x.failures

theorem collect {p : τ → ImpactProgram α} {q : τ → ImpactProgram β}
    {describe : τ → String}
    {l : List τ} (stable : Stable I) (grown : ∀ a b, Stable fun c f => R c f a b)
    (step : ∀ {c f}, I c f → ∀ t ∈ l, Alike c f (p t) (q t) R) (start : I c f)
    {x : BlastRadius.Outcomes α} {y : BlastRadius.Outcomes β} (before : Outcomes (R c f) x y) :
    Alike c f (ImpactProgram.collect describe p x l) (ImpactProgram.collect describe q y l)
      fun c₁ f₁ x y => Outcomes (R c₁ f₁) x y := by
  induction l generalizing c f x y with
  | nil => exact .pure before
  | cons t rest ih =>
      have attempt : Alike c f (ImpactProgram.attempt (p t)) (ImpactProgram.attempt (q t))
          fun c₁ f₁ => Both (R c₁ f₁) := by
        intro tidy u c₁ v c₂ ran ran'
        obtain ⟨a, inner, rfl⟩ := Program.runs_map.mp ran
        obtain ⟨b, inner', rfl⟩ := Program.runs_map.mp ran'
        exact step start t List.mem_cons_self tidy a c₁ b c₂ inner inner'
      refine attempt.bind fun c₁ f₁ a b grew both => ?_
      refine ih (fun holds u mem => step holds u (List.mem_cons_of_mem t mem))
        (stable grew start) ?_
      have old : List.Forall₂ (R c₁ f₁) x.successes y.successes :=
        before.successes.imp fun a b related => grown a b grew related
      rcases a with e | a <;> rcases b with e' | b
      · obtain rfl : e = e' := both
        exact ⟨old, by simp only [BlastRadius.Outcomes.record, before.failures]⟩
      · exact both.elim
      · exact both.elim
      · exact ⟨List.rel_append old (.cons both .nil), before.failures⟩

end Alike

end BlastRadius
