import BlastRadius.Proofs.Parity.Renaming
import BlastRadius.Proofs.Store.Reading

/-!
Programs that do alike on contents that differ in their identifiers. Two stores give different
identifiers to a new node, so a pair of runs also says how the identifiers correspond afterwards;
those of existing nodes correspond as before.
-/

namespace BlastRadius

namespace Contents

/-- What the operations keep besides validity. Where one of them picks a node by its identifier,
there is only one to pick. -/
structure Tidy (c : Contents) : Prop where
  valid : c.Valid
  /-- The component of an endpoint exists. -/
  owners : ∀ id name owner, c.node? id = some (.endpoint name owner) →
    owner ∈ c.ofKind .component
  /-- A caller has one record. -/
  records : ∀ id, (c.sources id .caller).Subsingleton
  /-- A vulnerability threatens one symbol. -/
  threats : ∀ id, (c.targets id .threatens).Subsingleton
  /-- An identity belongs to one vulnerability, and one vulnerability has none. -/
  identities : ∀ identity, {id | c.node? id = some (.vulnerability identity)}.Subsingleton

variable {c : Contents}

theorem empty_tidy : empty.Tidy where
  valid := empty_valid
  owners _ _ _ found := by cases found
  records _ := fun _ mem => by cases mem
  threats _ := fun _ mem => by cases mem
  identities _ := fun _ mem => by cases mem

namespace Tidy

variable (tidy : c.Tidy)
include tidy

theorem owner_live {id owner : NodeId} {name : String}
    (found : c.node? id = some (.endpoint name owner)) : owner ∈ c.live :=
  ofKind_subset_live _ (tidy.owners id name owner found)

theorem mark {ids : Set NodeId} (existing : ids ⊆ c.live) : (c.mark ids).Tidy where
  valid := tidy.valid.mark existing
  owners := tidy.owners
  records := tidy.records
  threats := tidy.threats
  identities := tidy.identities

theorem unmarked : c.unmarked.Tidy where
  valid := tidy.valid.unmarked
  owners := tidy.owners
  records := tidy.records
  threats := tidy.threats
  identities := tidy.identities

theorem insert {id : NodeId} {node : Node} (fresh : c.node? id = none)
    (free : ∀ key, node.key? = some key → c.keyed key = ∅)
    (owner : ∀ name owner, node = .endpoint name owner → owner ∈ c.ofKind .component)
    (identity : ∀ identity, node = .vulnerability identity →
      ∀ other, c.node? other ≠ some (.vulnerability identity)) :
    (c.insert id node).Tidy where
  valid := tidy.valid.insert fresh free
  owners other name k found := by
    have component : k ∈ c.ofKind .component := by
      by_cases same : other = id
      · rw [same, insert_node?_self] at found
        exact owner name k (Option.some.inj found)
      · rw [insert_node?_of_ne node same] at found
        exact tidy.owners other name k found
    obtain ⟨existing, found', kind⟩ := component
    exact ⟨existing, insert_node?_of_some fresh found', kind⟩
  records := tidy.records
  threats := tidy.threats
  identities given a ha b hb := by
    have old {x : NodeId} (hx : (c.insert id node).node? x = some (.vulnerability given)) :
        x = id ∧ node = .vulnerability given ∨ c.node? x = some (.vulnerability given) := by
      by_cases same : x = id
      · rw [same, insert_node?_self] at hx
        exact Or.inl ⟨same, Option.some.inj hx⟩
      · rw [insert_node?_of_ne node same] at hx
        exact Or.inr hx
    rcases old ha with ⟨ha, new⟩ | ha <;> rcases old hb with ⟨hb, new'⟩ | hb
    · rw [ha, hb]
    · exact absurd hb (identity given new b)
    · exact absurd ha (identity given new' a)
    · exact tidy.identities given ha hb

theorem link {e : Edge} {source target : Node} (hs : c.node? e.source = some source)
    (ht : c.node? e.target = some target) (permitted : e.relation.permits source.kind target.kind)
    (caller : e.relation = .caller → c.sources e.target .caller = ∅)
    (threat : e.relation = .threatens → c.targets e.source .threatens = ∅) :
      (c.link e).Tidy where
  valid := tidy.valid.link hs ht permitted
  owners := tidy.owners
  records id a ha b hb := by
    have none {s : NodeId} (he : (⟨s, .caller, id⟩ : Edge) = e) :
        c.sources id .caller = ∅ := by
      subst he
      exact caller rfl
    rcases ha with ha | ha <;> rcases hb with hb | hb
    · rw [← ha] at hb
      exact (congrArg Edge.source hb).symm
    · exact absurd hb (Set.eq_empty_iff_forall_notMem.mp (none ha) b)
    · exact absurd ha (Set.eq_empty_iff_forall_notMem.mp (none hb) a)
    · exact tidy.records id ha hb
  threats id a ha b hb := by
    have none {t : NodeId} (he : (⟨id, .threatens, t⟩ : Edge) = e) :
        c.targets id .threatens = ∅ := by
      subst he
      exact threat rfl
    rcases ha with ha | ha <;> rcases hb with hb | hb
    · rw [← ha] at hb
      exact (congrArg Edge.target hb).symm
    · exact absurd hb (Set.eq_empty_iff_forall_notMem.mp (none ha) b)
    · exact absurd ha (Set.eq_empty_iff_forall_notMem.mp (none hb) a)
    · exact tidy.threats id ha hb
  identities := tidy.identities

theorem rename_congr {f g : Renaming} (same : ∀ id ∈ c.live, g id = f id) :
    c.rename g = c.rename f :=
  Contents.rename_congr tidy.valid same fun _ _ _ found => tidy.owner_live found

end Tidy

end Contents

/-- Nodes are as they were, and their identifiers correspond as before. -/
structure Grown (c : Contents) (f : Renaming) (c' : Contents) (f' : Renaming) : Prop where
  nodes : ∀ {id node}, c.node? id = some node → c'.node? id = some node
  same : ∀ id ∈ c.live, f' id = f id

namespace Grown

variable {c c₁ c₂ : Contents} {f f₁ f₂ : Renaming}

theorem refl (c : Contents) (f : Renaming) : Grown c f c f := ⟨id, fun _ _ => rfl⟩

theorem live (grown : Grown c f c₁ f₁) {id : NodeId} (mem : id ∈ c.live) :
    id ∈ c₁.live := by
  obtain ⟨node, found⟩ := mem
  exact ⟨node, grown.nodes found⟩

theorem ofKind (grown : Grown c f c₁ f₁) {id : NodeId} {kind : NodeKind}
    (mem : id ∈ c.ofKind kind) :
    id ∈ c₁.ofKind kind := by
  obtain ⟨node, found, own⟩ := mem
  exact ⟨node, grown.nodes found, own⟩

theorem trans (first : Grown c f c₁ f₁) (second : Grown c₁ f₁ c₂ f₂) :
    Grown c f c₂ f₂ :=
  ⟨fun found => second.nodes (first.nodes found), fun id mem =>
    (second.same id (first.live mem)).trans (first.same id mem)⟩

end Grown

variable {ε δ α β γ κ : Type}

/-- Two results are both values that correspond, or the same error. -/
def Both (R : α → β → Prop) : Except ε α → Except ε β → Prop
  | .ok a, .ok b => R a b
  | .error e, .error e' => e = e'
  | _, _ => False

/-- Run on contents and on the renamed contents, two programs end with contents that correspond
again and with values that correspond, or with the same error. -/
def Alike (c : Contents) (f : Renaming) (p : ExceptT ε Program α) (q : ExceptT ε Program β)
    (R : Contents → Renaming → α → β → Prop) : Prop :=
  c.Tidy → ∀ x c₁ y c₂, p.run.Runs Contents.Step c x c₁ →
    q.run.Runs Contents.Step (c.rename f) y c₂ →
    ∃ f', c₂ = c₁.rename f' ∧ c₁.Tidy ∧ Grown c f c₁ f' ∧ Both (R c₁ f') x y

namespace Alike

variable {c : Contents} {f : Renaming} {R : Contents → Renaming → α → β → Prop}
  {S : Contents → Renaming → γ → κ → Prop}

theorem ofTidy {p : ExceptT ε Program α} {q : ExceptT ε Program β}
    (alike : c.Tidy → Alike c f p q R) : Alike c f p q R :=
  fun tidy => alike tidy tidy

theorem pure {a : α} {b : β} (related : R c f a b) :
    Alike c f (pure a : ExceptT ε Program α) (pure b) R := by
  rintro tidy _ _ _ _ ⟨rfl, rfl⟩ ⟨rfl, rfl⟩
  exact ⟨f, rfl, tidy, .refl _ _, related⟩

theorem throw (error : ε) :
    Alike c f (throw error : ExceptT ε Program α) (throw error : ExceptT ε Program β) R := by
  rintro tidy _ _ _ _ ⟨rfl, rfl⟩ ⟨rfl, rfl⟩
  exact ⟨f, rfl, tidy, .refl _ _, rfl⟩

theorem bind {p : ExceptT ε Program α} {q : ExceptT ε Program β}
    {k : α → ExceptT ε Program γ}
    {l : β → ExceptT ε Program κ} (first : Alike c f p q R)
    (second : ∀ c₁ f₁ a b, Grown c f c₁ f₁ → R c₁ f₁ a b →
      Alike c₁ f₁ (k a) (l b) S) :
    Alike c f (p >>= k) (q >>= l) S := by
  intro tidy x c₂ y d₂ ran ran'
  obtain ⟨a, c₁, ran₁, ran₂⟩ := runs_exceptT_bind.mp ran
  obtain ⟨b, d₁, ran₁', ran₂'⟩ := runs_exceptT_bind.mp ran'
  obtain ⟨f₁, rfl, tidy₁, grown, both⟩ := first tidy a c₁ b d₁ ran₁ ran₁'
  rcases a with e | a <;> rcases b with e' | b
  · obtain rfl : e = e' := both
    obtain ⟨rfl, rfl⟩ := ran₂
    obtain ⟨rfl, rfl⟩ := ran₂'
    exact ⟨f₁, rfl, tidy₁, grown, rfl⟩
  · exact both.elim
  · exact both.elim
  · obtain ⟨f₂, same, tidy₂, grown₂, both₂⟩ :=
      second c₁ f₁ a b grown both tidy₁ x c₂ y d₂ ran₂ ran₂'
    exact ⟨f₂, same, tidy₂, grown.trans grown₂, both₂⟩

theorem mono {p : ExceptT ε Program α} {q : ExceptT ε Program β}
    {S : Contents → Renaming → α → β → Prop} (alike : Alike c f p q R)
    (weaker : ∀ c₁ f₁ a b, Grown c f c₁ f₁ → R c₁ f₁ a b → S c₁ f₁ a b) :
      Alike c f p q S := by
  intro tidy x c₁ y c₂ ran ran'
  obtain ⟨f₁, same, tidy₁, grown, both⟩ := alike tidy x c₁ y c₂ ran ran'
  refine ⟨f₁, same, tidy₁, grown, ?_⟩
  rcases x with e | a <;> rcases y with e' | b
  · exact both
  · exact both
  · exact both
  · exact weaker c₁ f₁ a b grown both

theorem map {p : ExceptT ε Program α} {q : ExceptT ε Program β} {g : α → γ} {h : β → κ}
    (alike : Alike c f p q R)
    (related : ∀ c₁ f₁ a b, Grown c f c₁ f₁ → R c₁ f₁ a b →
      S c₁ f₁ (g a) (h b)) :
    Alike c f (g <$> p) (h <$> q) S := by
  rw [map_eq_pure_bind, map_eq_pure_bind]
  exact alike.bind fun c₁ f₁ a b grown both => .pure (related c₁ f₁ a b grown both)

theorem mapError {p : ExceptT ε Program α} {q : ExceptT ε Program β} (g : ε → δ)
    (alike : Alike c f p q R) :
    Alike c f (ExceptT.mk ((fun result => result.mapError g) <$> p.run))
      (ExceptT.mk ((fun result => result.mapError g) <$> q.run)) R := by
  intro tidy x c₁ y c₂ ran ran'
  obtain ⟨a, inner, rfl⟩ := Program.runs_map.mp ran
  obtain ⟨b, inner', rfl⟩ := Program.runs_map.mp ran'
  obtain ⟨f₁, same, tidy₁, grown, both⟩ := alike tidy a c₁ b c₂ inner inner'
  refine ⟨f₁, same, tidy₁, grown, ?_⟩
  rcases a with e | a <;> rcases b with e' | b
  · exact congrArg g both
  · exact both.elim
  · exact both.elim
  · exact both

theorem ofStore {p : StoreProgram α} {q : StoreProgram β} (alike : Alike c f p q R) :
    Alike c f (ImpactProgram.ofStore p) (ImpactProgram.ofStore q) R :=
  alike.mapError ImpactError.store

theorem atomically {p : StoreProgram α} {q : StoreProgram β} (alike : Alike c f p q R) :
    Alike c f (StoreProgram.atomically p) (StoreProgram.atomically q) R := by
  intro tidy x c₁ y c₂ ran ran'
  obtain ⟨m, inner, rfl⟩ := runs_storeAtomically.mp ran
  obtain ⟨m', inner', rfl⟩ := runs_storeAtomically.mp ran'
  obtain ⟨f₁, rfl, tidy₁, grown, both⟩ := alike tidy x m y m' inner inner'
  rcases x with e | a <;> rcases y with e' | b
  · exact ⟨f, rfl, tidy, .refl c f, both⟩
  · exact both.elim
  · exact both.elim
  · exact ⟨f₁, rfl, tidy₁, grown, both⟩

theorem leads {p : ExceptT ε Program α} {q : ExceptT ε Program β}
    (determined : c.Tidy → (c.rename f).Valid → ∃ x y c₁, Leads p.run c x c₁ ∧
      Leads q.run (c.rename f) y (c₁.rename f) ∧ c₁.Tidy ∧
      (∀ {id node}, c.node? id = some node → c₁.node? id = some node) ∧
        Both (R c₁ f) x y) :
    Alike c f p q R := by
  intro tidy x c₁ y c₂ ran ran'
  obtain ⟨x', y', c', leads, leads', tidy', nodes, both⟩ :=
    determined tidy (tidy.valid.rename f)
  obtain ⟨rfl, rfl⟩ := leads.unique_of_runs ran
  obtain ⟨rfl, rfl⟩ := leads'.unique_of_runs ran'
  exact ⟨f, rfl, tidy', ⟨nodes, fun _ _ => rfl⟩, both⟩

theorem reads {p : ExceptT ε Program α} {q : ExceptT ε Program β} {R : α → β → Prop}
    (determined : c.Tidy → (c.rename f).Valid → ∃ a b, Reads p c a ∧
      Reads q (c.rename f) b ∧ R a b) :
    Alike c f p q fun c₁ f₁ a b => c₁ = c ∧ f₁ = f ∧ R a b :=
  .leads fun tidy valid => by
    obtain ⟨a, b, left, right, related⟩ := determined tidy valid
    exact ⟨.ok a, .ok b, c, left, right, tidy, id, rfl, rfl, related⟩

end Alike

end BlastRadius
