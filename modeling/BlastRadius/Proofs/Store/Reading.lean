import BlastRadius.Proofs.Store.Faithful
import BlastRadius.Proofs.Store.Keeping

/-!
Programs whose run the contents determine: what they answer and what they leave, and what is found
by those that only read. The order in which something is found depends on identifiers, so a search
is described by the set of what it finds.
-/

namespace BlastRadius

variable {α β τ ε δ : Type} {c c' m : Contents}

/-- From some contents, a program answers with a value and leaves other contents,
whatever the store. -/
def Leads (p : Program α) (c : Contents) (x : α) (c' : Contents) : Prop :=
  p.Runs Contents.Determined c x c'

/-- A program answers with a value and changes nothing. -/
def Reads (p : ExceptT ε Program α) (c : Contents) (x : α) : Prop := Leads p.run c (.ok x) c

/-- A program lists the elements of a set and changes nothing. -/
def Finds (p : ExceptT ε Program (List α)) (c : Contents) (s : Set α) : Prop :=
  ∃ l, Reads p c l ∧ ∀ x, x ∈ l ↔ x ∈ s

namespace Leads

theorem pure (x : α) : Leads (pure x : ExceptT ε Program α).run c (.ok x) c := ⟨rfl, rfl⟩

theorem throw (error : ε) :
    Leads (MonadExcept.throw error : ExceptT ε Program α).run c (.error error) c := ⟨rfl, rfl⟩

theorem bind {p : ExceptT ε Program α} {f : α → ExceptT ε Program β} {x : α}
    {y : Except ε β}
    (first : Leads p.run c (.ok x) m) (second : Leads (f x).run m y c') :
    Leads (p >>= f).run c y c' :=
  runs_exceptT_bind.mpr ⟨.ok x, m, first, second⟩

theorem bind_error {p : ExceptT ε Program α} {f : α → ExceptT ε Program β} {error : ε}
    (first : Leads p.run c (.error error) c') : Leads (p >>= f).run c (.error error) c' :=
  runs_exceptT_bind.mpr ⟨.error error, c', first, rfl, rfl⟩

theorem map {p : ExceptT ε Program α} {x : α} (f : α → β)
    (first : Leads p.run c (.ok x) c') :
    Leads (f <$> p).run c (.ok (f x)) c' :=
  runs_exceptT_map.mpr ⟨.ok x, first, rfl⟩

theorem map_error {p : ExceptT ε Program α} {error : ε} (f : α → β)
    (first : Leads p.run c (.error error) c') : Leads (f <$> p).run c (.error error) c' :=
  runs_exceptT_map.mpr ⟨.error error, first, rfl⟩

theorem call {q : Call} {r : Except StoreError q.Reply} (h : c.answer? q = some (r, c')) :
    Leads (StoreProgram.call q).run c r c' :=
  runs_storeCall.mpr h

theorem atomically {body : StoreProgram β} {x : β} (h : Leads body.run c (.ok x) c') :
    Leads (StoreProgram.atomically body).run c (.ok x) c' :=
  runs_storeAtomically.mpr ⟨c', h, rfl⟩

theorem mapError {p : ExceptT ε Program α} {r : Except ε α} (f : ε → δ)
    (h : Leads p.run c r c') :
    Leads ((fun result => result.mapError f) <$> p.run) c (r.mapError f) c' :=
  Program.runs_map.mpr ⟨r, h, rfl⟩

theorem ofStore {p : StoreProgram α} {x : α} (h : Leads p.run c (.ok x) c') :
    Leads (ImpactProgram.ofStore p).run c (.ok x) c' :=
  h.mapError ImpactError.store

/-- What the contents determine is the only run. -/
theorem unique_of_runs {p : Program α} {x y : α} (leads : Leads p c x m)
    (runs : p.Runs Contents.Step c y c') : y = x ∧ c' = m :=
  Program.Runs.unique (fun _ _ _ _ _ _ => Contents.Determined.unique) leads runs

end Leads

namespace Reads

theorem pure (x : α) : Reads (pure x : ExceptT ε Program α) c x := Leads.pure x

theorem bind {p : ExceptT ε Program α} {f : α → ExceptT ε Program β} {x : α} {y : β}
    (first : Reads p c x) (second : Reads (f x) c y) : Reads (p >>= f) c y :=
  Leads.bind first second

theorem getNode {id : NodeId} {node : Node} (found : c.node? id = some node) :
    Reads (StoreProgram.call (.getNode id)) c node :=
  Leads.call (congrArg (fun r => some (r, c)) (Contents.about_of_node? found _))

theorem nodeKind {id : NodeId} {kind : NodeKind} (h : id ∈ c.ofKind kind) :
    Reads (StoreProgram.call (.nodeKind id)) c kind := by
  obtain ⟨node, found, rfl⟩ := h
  exact Leads.call (congrArg (fun r => some (r, c)) (Contents.about_of_node? found _))

theorem findNode (key : NodeKey) : Reads (StoreProgram.call (.findNode key)) c (c.find? key) :=
  Leads.call rfl

theorem nodesOfKind (kind : NodeKind) :
    Reads (StoreProgram.call (.nodesOfKind kind)) c (NodeId.listed (c.ofKind kind)) :=
  Leads.call rfl

theorem markedNodes (kind : NodeKind) : Reads (StoreProgram.call (.markedNodes kind)) c
    (NodeId.listed (c.marked ∩ c.ofKind kind)) :=
  Leads.call rfl

theorem targets {id : NodeId} (live : id ∈ c.live) (relation : Relation) :
    Reads (StoreProgram.call (.targets id relation)) c (NodeId.listed (c.targets id relation)) := by
  obtain ⟨node, found⟩ := live
  exact Leads.call (congrArg (fun r => some (r, c)) (Contents.about_of_node? found _))

theorem sources {id : NodeId} (live : id ∈ c.live) (relation : Relation) :
    Reads (StoreProgram.call (.sources id relation)) c (NodeId.listed (c.sources id relation)) := by
  obtain ⟨node, found⟩ := live
  exact Leads.call (congrArg (fun r => some (r, c)) (Contents.about_of_node? found _))

theorem isMarked {id : NodeId} (live : id ∈ c.live) :
    Reads (StoreProgram.call (.isMarked id)) c (c.isMarked id) := by
  obtain ⟨node, found⟩ := live
  exact Leads.call (congrArg (fun r => some (r, c)) (Contents.about_of_node? found _))

theorem each {f : τ → StoreProgram α} {g : τ → α} {l : List τ}
    (h : ∀ a ∈ l, Reads (f a) c (g a)) :
    Reads (StoreProgram.each f l) c (l.map g) := by
  induction l with
  | nil => exact .pure []
  | cons a rest ih =>
      refine (h a List.mem_cons_self).bind ?_
      exact (ih fun b mem => h b (List.mem_cons_of_mem a mem)).bind (.pure _)

theorem gather {f : τ → StoreProgram (List α)} {g : τ → List α} {l : List τ}
    (h : ∀ a ∈ l, Reads (f a) c (g a)) : Reads (StoreProgram.gather f l) c (l.flatMap g) := by
  induction l with
  | nil => exact .pure []
  | cons a rest ih =>
      refine (h a List.mem_cons_self).bind ?_
      exact (ih fun b mem => h b (List.mem_cons_of_mem a mem)).bind (.pure _)

theorem first? {p : τ → StoreProgram Bool} {g : τ → Bool} {l : List τ}
    (h : ∀ a ∈ l, Reads (p a) c (g a)) : Reads (StoreProgram.first? p l) c (l.find? g) := by
  induction l with
  | nil => exact .pure none
  | cons a rest ih =>
      refine (h a List.mem_cons_self).bind ?_
      rw [List.find?_cons]
      cases g a with
      | true => exact .pure (some a)
      | false => exact ih fun b mem => h b (List.mem_cons_of_mem a mem)

theorem keep {p : τ → StoreProgram Bool} {g : τ → Bool} {l : List τ}
    (h : ∀ a ∈ l, Reads (p a) c (g a)) : Reads (StoreProgram.keep p l) c (l.filter g) := by
  induction l with
  | nil => exact .pure []
  | cons a rest ih =>
      refine (h a List.mem_cons_self).bind ?_
      refine (ih fun b mem => h b (List.mem_cons_of_mem a mem)).bind ?_
      rw [List.filter_cons]
      exact .pure _

end Reads

namespace Finds

variable {s t : Set α}

theorem congr {p : ExceptT ε Program (List α)} (h : Finds p c s)
    (same : ∀ x, x ∈ s ↔ x ∈ t) :
    Finds p c t := by
  obtain ⟨l, reads, mem⟩ := h
  exact ⟨l, reads, fun x => (mem x).trans (same x)⟩

theorem ofListed {p : ExceptT ε Program (List NodeId)} {ids : Set NodeId}
    (h : Reads p c (NodeId.listed ids)) : Finds p c ids :=
  ⟨_, h, fun _ => NodeId.mem_listed⟩

theorem bind {p : ExceptT ε Program (List τ)} {f : List τ → ExceptT ε Program (List α)}
    {r : Set τ}
    (first : Finds p c r) (second : ∀ l, (∀ a, a ∈ l ↔ a ∈ r) → Finds (f l) c s) :
    Finds (p >>= f) c s := by
  obtain ⟨l, reads, mem⟩ := first
  obtain ⟨l', reads', mem'⟩ := second l mem
  exact ⟨l', reads.bind reads', mem'⟩

theorem gather {f : τ → StoreProgram (List α)} {g : τ → Set α} {l : List τ}
    (h : ∀ a ∈ l, Finds (f a) c (g a)) :
    Finds (StoreProgram.gather f l) c {x | ∃ a ∈ l, x ∈ g a} := by
  induction l with
  | nil => exact ⟨[], .pure [], by simp⟩
  | cons a rest ih =>
      obtain ⟨l₁, reads₁, mem₁⟩ := h a List.mem_cons_self
      obtain ⟨l₂, reads₂, mem₂⟩ := ih fun b mem => h b (List.mem_cons_of_mem a mem)
      refine ⟨l₁ ++ l₂, reads₁.bind (reads₂.bind (.pure _)), fun x => ?_⟩
      rw [List.mem_append, mem₁, mem₂]
      simp

end Finds

theorem Contents.Determined.eq_of_reads {q : Call} {r : Except StoreError q.Reply}
    (determined : Contents.Determined c q r c') (reads : q.reads = true) : c' = c := by
  cases q <;> first
    | exact (congrArg Prod.snd (Option.some.inj determined)).symm
    | exact absurd reads Bool.false_ne_true
    | cases determined

/-- A program that the contents determine, each of whose calls leads from contents as `I`
says to such contents. -/
def Through (I : Contents → Prop) (p : Program α) (c : Contents) (x : α) (c' : Contents) :
    Prop :=
  p.Runs (fun c q r c' => Contents.Determined c q r c' ∧ I c ∧ I c') c x c'

namespace Through

variable {I : Contents → Prop}

theorem leads {p : Program α} {x : α} (through : Through I p c x c') : Leads p c x c' :=
  Program.Runs.mono (fun _ _ _ _ => And.left) through

theorem pure (x : α) : Through I (pure x : ExceptT ε Program α).run c (.ok x) c := ⟨rfl, rfl⟩

theorem bind {p : ExceptT ε Program α} {f : α → ExceptT ε Program β} {x : α}
    {y : Except ε β}
    (first : Through I p.run c (.ok x) m) (second : Through I (f x).run m y c') :
    Through I (p >>= f).run c y c' :=
  runs_exceptT_bind.mpr ⟨.ok x, m, first, second⟩

theorem mapError {p : ExceptT ε Program α} {r : Except ε α} (f : ε → δ)
    (through : Through I p.run c r c') :
    Through I ((fun result => result.mapError f) <$> p.run) c (r.mapError f) c' :=
  Program.runs_map.mpr ⟨r, through, rfl⟩

theorem call {q : Call} {r : Except StoreError q.Reply} (answer : c.answer? q = some (r, c'))
    (here : I c) (there : I c') : Through I (StoreProgram.call q).run c r c' :=
  runs_storeCall.mpr ⟨answer, here, there⟩

theorem mono {J : Contents → Prop} (sub : ∀ m, I m → J m) {p : Program α} {x : α}
    (through : Through I p c x c') : Through J p c x c' :=
  Program.Runs.mono (fun _ _ _ _ ⟨determined, here, there⟩ =>
    ⟨determined, sub _ here, sub _ there⟩) through

theorem between {R : Contents → Contents → Prop} (refl : ∀ c, R c c)
    (trans : ∀ {a b c}, R a b → R b c → R a c) {C : Call → Prop}
    (keeps : ∀ {q}, C q → CallKeeps Contents.Determined R q) {p : Program α} {x : α}
    (each : p.Each C fun _ _ => False) (leads : Leads p c x c') :
    Through (fun m => R c m ∧ R m c') p c x c' := by
  induction p generalizing c with
  | done value => exact leads
  | call q next ih =>
      obtain ⟨r, m, determined, rest⟩ := leads
      have first : R c m := keeps each.1 c r m determined
      have later : R m c' := by
        have keeping : (next r).Keeps Contents.Determined R :=
          (each.2 r).mono (fun _ => keeps) fun _ _ absurd => absurd.elim
        exact Program.Keeps.runs refl trans keeping rest
      refine ⟨r, m, ⟨determined, ⟨refl c, trans first later⟩, first, later⟩, ?_⟩
      exact (ih r (each.2 r) rest).mono fun m' ⟨above, below⟩ => ⟨trans first above, below⟩
  | atomically body next _ _ => exact absurd each.1 id

theorem of_reading {p : Program α} {x : α} (here : I c)
    (each : p.Each (fun q => q.reads = true) fun _ _ => False) (leads : Leads p c x c') :
    Through I p c x c' := by
  refine (between (R := Eq) (fun _ => rfl) Eq.trans ?_ each leads).mono fun m same =>
    same.1 ▸ here
  exact fun reads _ _ _ determined => (determined.eq_of_reads reads).symm

end Through

end BlastRadius
