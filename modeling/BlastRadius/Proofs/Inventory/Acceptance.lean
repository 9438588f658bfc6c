import BlastRadius.Proofs.Inventory.Assertions
import BlastRadius.Proofs.Inventory.Gains
import BlastRadius.Proofs.Store.Ensuring

/-!
Operations record what is accepted of their assertions, and say whether that is all. Where
identifiers may run out, a single assertion is then refused.
-/

namespace BlastRadius

namespace ImpactError

mutual

/-- Whether identifiers had run out, for an operation or for one of its targets. -/
def exhausted : ImpactError → Bool
  | store (.idOverflow _) => true
  | partialFailure _ failures => someExhausted failures
  | _ => false

def someExhausted : List (String × ImpactError) → Bool
  | [] => false
  | failure :: rest => targetExhausted failure || someExhausted rest

def targetExhausted : String × ImpactError → Bool
  | (_, error) => error.exhausted

end

theorem someExhausted_append (failures others : List (String × ImpactError)) :
    someExhausted (failures ++ others) = (someExhausted failures || someExhausted others) := by
  induction failures with
  | nil => rfl
  | cons failure rest ih => rw [List.cons_append, someExhausted, someExhausted, ih, Bool.or_assoc]

end ImpactError

namespace Supply

variable {supply : Supply} {c m : Contents} {facts facts' gained : Set Fact} {α : Type}

/-- Identifiers may run out. -/
def Lacking (supply : Supply) : Prop := ∃ c, supply.short c

/-- Nodes may be asked for as long as one is wanted for some of the facts. -/
def Provides (supply : Supply) (c : Contents) (facts : Set Fact) : Prop :=
  ∀ m gained, c.Gains gained ∅ m → gained ⊆ facts → (∃ fact ∈ facts, m.Wants fact) →
    supply.spare m

theorem Provides.step (provides : supply.Provides c facts) (gains : c.Gains gained ∅ m)
    (some : gained ⊆ facts) (fewer : facts' ⊆ facts) : supply.Provides m facts' := by
  intro m' gained' gains' some' wants
  have both := gains.trans gains'
  rw [Set.union_empty] at both
  refine provides m' _ both (Set.union_subset some (some'.trans fewer)) ?_
  exact wants.imp fun fact ⟨mem, lacks⟩ => ⟨fewer mem, lacks⟩

theorem Provides.spare (provides : supply.Provides c facts) (regular : c.Regular) {fact : Fact}
    (mem : fact ∈ facts) (wants : c.Wants fact) : supply.spare c :=
  provides c ∅ (.refl regular) (Set.empty_subset _) ⟨fact, mem, wants⟩

/-- What is wanted of a part of a block: it fails only when identifiers run out. -/
def Yields (supply : Supply) (Q : α → Contents → Prop) :
    Except StoreError α → Contents → Prop
  | .ok value, m => Q value m
  | .error error, _ => (∃ row, error = .idOverflow row) ∧ supply.Lacking

/-- What is wanted of a block: when identifiers run out everything is as it was. -/
def Completes (supply : Supply) (c : Contents) (Q : α → Contents → Prop) :
    Except StoreError α → Contents → Prop
  | .ok value, m => Q value m
  | .error error, m => (∃ row, error = .idOverflow row) ∧ supply.Lacking ∧ m = c

end Supply

/-- What is wanted of a program that makes an assertion and answers with a value that
means something: the facts are recorded, or the assertion is not accepted and nothing is,
or identifiers run out. -/
def Assertion.Settled {α : Type} (s : Assertion) (supply : Supply) (c : Contents)
    (means : α → Contents → Prop) : Except ImpactError α → Contents → Prop
  | .ok value, m => s.Accepted c.shown ∧ c.Gains {fact | fact ∈ s.facts} ∅ m ∧ means value m
  | .error error, m => m = c ∧
      (error.exhausted = true ∧ supply.Lacking ∨ error.exhausted = false ∧
        ¬ s.Accepted c.shown)

/-- What is wanted of a program that looks for the node of an entity. -/
def Contents.Located (c : Contents) (e : Entity) : Except ImpactError NodeId → Contents → Prop
  | .ok x, m => m = c ∧ c.Denotes x e
  | .error error, m => m = c ∧ error.exhausted = false ∧ .present e ∉ c.shown

namespace Contents

variable {c m : Contents} {x : NodeId} {e : Entity} {key : NodeKey}

theorem denotes_iff_node (own : e.key? = some key) :
    c.Denotes x e ↔ c.node? x = some key.node := by
  cases e <;> cases own <;> exact Iff.rfl

theorem denotes_iff_keyed (own : e.key? = some key) : c.Denotes x e ↔ x ∈ c.keyed key :=
  (denotes_iff_node own).trans mem_keyed.symm

theorem Valid.endpoint_iff_keyed (valid : c.Valid) {endpoint : EndpointRef} {owner : NodeId}
    (component : c.Denotes owner (.component endpoint.component)) :
    c.Denotes x (.endpoint endpoint) ↔ x ∈ c.keyed (.endpoint endpoint.name owner) := by
  rw [mem_keyed]
  refine ⟨?_, fun found => ⟨owner, component, found⟩⟩
  rintro ⟨owner', component', found⟩
  rwa [valid.denotes_unique (e := .component _) component' component] at found

theorem Gains.congr {facts facts' : Set Fact} {groups : Set (Set Entity)}
    (gains : c.Gains facts groups m) (same : facts = facts') : c.Gains facts' groups m :=
  same ▸ gains

theorem Gains.regroup {facts : Set Fact} {groups groups' : Set (Set Entity)}
    (gains : c.Gains facts groups m) (same : groups = groups') : c.Gains facts groups' m :=
  same ▸ gains

end Contents

namespace Ensures

open Contents

variable {supply : Supply} {c m : Contents} {x y owner : NodeId} {e e' : Entity} {key : NodeKey}
  {α β : Type}

theorem yields_bind {p : StoreProgram α} {f : α → StoreProgram β}
    {P : α → Contents → Prop}
    {Q : β → Contents → Prop} (first : Ensures supply p c (supply.Yields P))
    (rest : ∀ value m, P value m → Ensures supply (f value) m (supply.Yields Q)) :
    Ensures supply (p >>= f) c (supply.Yields Q) :=
  first.bind rest fun _ _ => id

theorem mergedId (regular : c.Regular) (own : e.key? = some key)
    (spare : c.Wants (.present e) → supply.spare c)
    {Q : Except StoreError NodeId → Contents → Prop}
    (merged : ∀ id m, m.Denotes id e → c.Gains {.present e} ∅ m → Q (.ok id) m)
    (refused : ∀ row, supply.Lacking → Q (.error (.idOverflow row)) c) :
    Ensures supply (Inventory.mergedId key.node) c Q := by
  have wants (free : c.keyed key = ∅) : c.Wants (.present e) := fun x denotes =>
    Set.notMem_empty x (free ▸ (denotes_iff_keyed own).mp denotes)
  refine bind (P := fun x m => Q (x.map Prod.fst) m)
    (mergeNode regular.valid key.node_key? ?_ ?_ ?_ ?_)
    (fun _ _ => pure) fun _ _ => id
  · intro id known
    have denotes := (denotes_iff_keyed own).mpr known
    exact merged id c denotes (regular.gains_known (Set.singleton_subset_iff.mpr ⟨id, denotes⟩))
  · exact fun free => spare (wants free)
  · intro free id fresh
    have new : (c.insert id key.node).Denotes id e :=
      (denotes_iff_node own).mpr (insert_node?_self id key.node)
    refine merged id _ new (regular.gains_entity fresh (fun key' own' => ?_) new ?_)
    · rw [key.node_key?, Option.some.injEq] at own'
      exact own' ▸ free
    · rintro same
      cases e <;> cases same
      cases own
  · exact fun free short row => refused row ⟨c, short⟩

theorem findKey (valid : c.Valid) (known : ∀ x, c.Denotes x e ↔ x ∈ c.keyed key)
    (shown : String) :
    Ensures supply (ImpactProgram.findAs key shown) c (c.Located e) := by
  have look := Leads.ofStore (Reads.findNode (c := c) key)
  cases found : c.find? key with
  | some x =>
      rw [found] at look
      exact of_leads (look.bind (.pure x)) ⟨rfl, (known x).mpr (valid.find?_eq_some.mp found)⟩
  | none =>
      rw [found] at look
      refine of_leads (look.bind (.throw _)) ⟨rfl, rfl, fun ⟨x, denotes⟩ => ?_⟩
      exact Set.notMem_empty x (find?_eq_none.mp found ▸ (known x).mp denotes)

theorem findAs (valid : c.Valid) (own : e.key? = some key) (shown : String) :
    Ensures supply (ImpactProgram.findAs key shown) c (c.Located e) :=
  findKey valid (fun _ => denotes_iff_keyed own) shown

theorem findEndpoint (valid : c.Valid) (endpoint : EndpointRef) :
    Ensures supply (Inventory.findEndpoint endpoint) c (c.Located (.endpoint endpoint)) := by
  refine (findAs (e := .component endpoint.component) valid rfl _).bind ?_ ?_
  · rintro owner _ ⟨rfl, component⟩
    exact findKey valid (fun x => valid.endpoint_iff_keyed component) _
  · rintro error _ ⟨rfl, plain, missing⟩
    exact ⟨rfl, plain, fun ⟨x, owner, component, _⟩ => missing ⟨owner, component⟩⟩

theorem relate {relation : Relation} (source : c.Denotes x e) (target : c.Denotes y e')
    (permitted : relation.permits e.kind e'.kind = true)
    {Q : Except StoreError Bool → Contents → Prop}
    (linked : ∀ isNew, Q (.ok isNew) (c.link ⟨x, relation, y⟩)) :
    Ensures supply (StoreProgram.call (.insertEdge ⟨x, relation, y⟩)) c Q := by
  obtain ⟨s, hs, hs'⟩ := source.ofKind
  obtain ⟨t, ht, ht'⟩ := target.ofKind
  have answer := linked_of_permits (e := ⟨x, relation, y⟩) hs ht (by rwa [hs', ht'])
  exact of_leads (Leads.call (q := .insertEdge ⟨x, relation, y⟩) (congrArg some answer))
    (linked _)

theorem merged (regular : c.Regular) (own : e.key? = some key) (holds : Bool) (reason : String)
    (provides : holds = true → supply.Provides c {.present e}) : Ensures supply (do
      ImpactProgram.require holds reason
      ImpactProgram.ofStore (Inventory.mergedId key.node)) c
      (Assertion.Settled { wellFormed := holds, facts := [.present e] } supply c
        fun id m => m.Denotes id e) := by
  refine require (fun refused => ⟨rfl, Or.inr ⟨rfl, ?_⟩⟩) fun accepted => ofStore ?_
  · exact fun accepted => Bool.false_ne_true (refused.symm.trans accepted.1)
  · refine mergedId regular own ((provides accepted).spare regular rfl)
      (fun id m denotes gains => ?_) ?_
    · exact ⟨⟨accepted, nofun⟩, gains.congr (by simp), denotes⟩
    · exact fun row lacking => ⟨rfl, Or.inl ⟨rfl, lacking⟩⟩

theorem related (regular : c.Regular) {relation : Relation} {find find' : ImpactProgram NodeId}
    (look : Ensures supply find c (c.Located e)) (look' : Ensures supply find' c (c.Located e'))
    (permitted : relation.permits e.kind e'.kind = true) (plain : relation.plain = true)
    (other : relation ≠ .exposes) : Ensures supply (do
      let source ← find
      let target ← find'
      ImpactProgram.ofStore (StoreProgram.call (.insertEdge ⟨source, relation, target⟩))) c
      (Assertion.Settled { needs := [e, e'], facts := [.related e relation e'] } supply c
        fun _ _ => True) := by
  refine look.bind ?_ ?_
  · rintro x _ ⟨rfl, source⟩
    refine look'.bind ?_ ?_
    · rintro y _ ⟨rfl, target⟩
      refine ofStore (relate source target permitted fun isNew => ⟨⟨rfl, ?_⟩, ?_, trivial⟩)
      · simp only [List.mem_cons, List.not_mem_nil, or_false]
        rintro _ (rfl | rfl)
        · exact ⟨x, source⟩
        · exact ⟨y, target⟩
      · exact (regular.gains_relation _ source target permitted plain other).congr (by simp)
    · rintro error _ ⟨rfl, plain, missing⟩
      exact ⟨rfl, Or.inr ⟨plain, fun accepted => missing (accepted.2 e' (by simp))⟩⟩
  · rintro error _ ⟨rfl, plain, missing⟩
    exact ⟨rfl, Or.inr ⟨plain, fun accepted => missing (accepted.2 e (by simp))⟩⟩

theorem hostComponent (regular : c.Regular) (guest host : Artifact) :
    Ensures supply (Inventory.hostComponent guest host) c
      (Assertion.Settled { needs := [.component guest, .asset host]
                           facts := [.related (.component guest) .hostedBy (.asset host)] } supply c
        fun _ _ => True) :=
  related regular (findAs (e := .component guest) regular.valid rfl _)
    (findAs (e := .asset host) regular.valid rfl _) rfl rfl nofun

theorem addServes (regular : c.Regular) (endpoint : EndpointRef) (symbol : String) :
    Ensures supply (Inventory.addServes endpoint symbol) c
      (Assertion.Settled { needs := [.endpoint endpoint, .symbol symbol]
                           facts := [.related (.endpoint endpoint) .serves (.symbol symbol)] }
        supply c fun _ _ => True) :=
  related regular (findEndpoint regular.valid endpoint)
    (findAs (e := .symbol symbol) regular.valid rfl _) rfl rfl nofun

theorem compose {other : Supply} (regular : c.Regular) {name : String} {system : NodeId}
    (denotes : c.Denotes system (.system name)) (part : Artifact) :
    Ensures supply (Inventory.compose system part) c
      (Assertion.Settled { needs := [.component part]
                           facts := [.related (.system name) .composedOf (.component part)] }
        other c fun _ _ => True) := by
  refine (findAs (e := .component part) regular.valid rfl _).bind ?_ ?_
  · rintro x _ ⟨rfl, target⟩
    refine ofStore (relate denotes target rfl fun isNew => ⟨⟨rfl, ?_⟩, ?_, trivial⟩)
    · exact fun e mem => List.mem_singleton.mp mem ▸ ⟨x, target⟩
    · have gains := regular.gains_relation .composedOf denotes target rfl rfl nofun
      exact gains.congr (by simp)
  · rintro error _ ⟨rfl, plain, missing⟩
    exact ⟨rfl, Or.inr ⟨plain, fun accepted => missing (accepted.2 _ (by simp))⟩⟩

theorem exposing (regular : c.Regular) {endpoint : EndpointRef}
    (named : endpoint.name.isEmpty = false)
    (component : c.Denotes owner (.component endpoint.component))
    (spare : c.Wants (.present (.endpoint endpoint)) → supply.spare c) :
    Ensures supply (Inventory.exposing endpoint.name owner) c (supply.Yields fun id m =>
      m.Denotes id (.endpoint endpoint) ∧ c.Gains {fact | fact ∈ endpoint.assertion.facts}
        ∅ m) := by
  have known {x : NodeId} := regular.valid.endpoint_iff_keyed (x := x) component
  have facts : {fact | fact ∈ endpoint.assertion.facts} = {.present (.endpoint endpoint),
      .related (.endpoint endpoint) .exposes (.component endpoint.component)} := by
    ext fact
    simp [EndpointRef.assertion]
  refine bind (P := supply.Yields fun merged m => m.Denotes merged.1 (.endpoint endpoint) ∧
    m.Denotes owner (.component endpoint.component) ∧
      c.Gains {fact | fact ∈ endpoint.assertion.facts} ∅
        (m.link ⟨merged.1, .exposes, owner⟩)) ?_ ?_
    fun _ _ => id
  · refine mergeNode regular.valid rfl ?_ ?_ ?_ ?_
    · intro id own
      have denotes := known.mpr own
      have edge := (regular.exposed (mem_keyed.mp own)).2
      rw [Supply.Yields, link_of_mem edge, facts]
      refine ⟨denotes, component, regular.gains_known ?_⟩
      rintro _ (rfl | rfl)
      · exact ⟨id, denotes⟩
      · exact ⟨id, owner, denotes, component, edge⟩
    · exact fun free => spare fun x denotes => Set.notMem_empty x (free ▸ known.mp denotes)
    · intro free id fresh
      have held : (c.insert id (.endpoint endpoint.name owner)).node? owner =
          some (.component endpoint.component) := insert_node?_of_some fresh component
      rw [Supply.Yields, facts]
      exact ⟨⟨owner, held, insert_node?_self id _⟩, held,
        regular.gains_endpoint fresh free component named⟩
    · exact fun _ short row => ⟨⟨row, rfl⟩, c, short⟩
  · rintro ⟨id, isNew⟩ m ⟨source, target, gains⟩
    refine yields_bind (P := fun _ m' => m' = m.link ⟨id, .exposes, owner⟩)
      (relate source target rfl fun _ => rfl) ?_
    rintro _ _ rfl
    exact pure ⟨(denotes_congr rfl).mpr source, gains⟩

/-- A block that fails only when identifiers run out leaves no trace of it. -/
theorem atomically_yields {body : StoreProgram α} {P : α → Contents → Prop}
    (ensures : Ensures supply body c (supply.Yields P)) :
    Ensures supply (StoreProgram.atomically body) c (supply.Completes c P) := by
  refine atomically (ensures.mono fun x m holds => ?_)
  cases x with
  | ok value => exact holds
  | error error => exact ⟨holds.1, holds.2, rfl⟩

theorem block {body : StoreProgram α} {Q : Except ImpactError α → Contents → Prop}
    {P : α → Contents → Prop} (ensures : Ensures supply body c (supply.Yields P))
    (done : ∀ value m, P value m → Q (.ok value) m)
    (refused : ∀ row, supply.Lacking → Q (.error (.store (.idOverflow row))) c) :
    Ensures supply (ImpactProgram.ofStore (StoreProgram.atomically body)) c Q := by
  refine ofStore ((atomically_yields ensures).mono fun x m holds => ?_)
  cases x with
  | ok value => exact done value m holds
  | error error =>
      obtain ⟨⟨row, rfl⟩, lacking, rfl⟩ := holds
      exact refused row lacking

theorem upsertEndpoint (regular : c.Regular) (endpoint : EndpointRef)
    (provides : endpoint.assertion.Accepted c.shown →
      supply.Provides c {fact | fact ∈ endpoint.assertion.facts}) :
    Ensures supply (Inventory.upsertEndpoint endpoint) c
      (endpoint.assertion.Settled supply c fun id m => m.Denotes id (.endpoint endpoint)) := by
  refine require (fun refused => ⟨rfl, Or.inr ⟨rfl, ?_⟩⟩) fun named => ?_
  · exact fun accepted => Bool.false_ne_true (refused.symm.trans accepted.1)
  · refine (findAs (e := .component endpoint.component) regular.valid rfl _).bind ?_ ?_
    · rintro owner c ⟨rfl, component⟩
      have accepted : endpoint.assertion.Accepted c.shown :=
        ⟨named, fun e mem => List.mem_singleton.mp mem ▸ ⟨owner, component⟩⟩
      refine block (exposing regular (Bool.not_eq_true' _ ▸ named) component
        ((provides accepted).spare regular List.mem_cons_self)) ?_ ?_
      · rintro id m ⟨denotes, gains⟩
        exact ⟨accepted, gains, denotes⟩
      · exact fun row lacking => ⟨rfl, Or.inl ⟨rfl, lacking⟩⟩
    · rintro error _ ⟨rfl, plain, missing⟩
      exact ⟨rfl, Or.inr ⟨plain, fun accepted => missing (accepted.2 _ List.mem_cons_self)⟩⟩

theorem eachProvide (regular : c.Regular) {library : Artifact}
    (denotes : c.Denotes owner (.library library)) {symbols : List String}
    (provides : supply.Provides c {fact | fact ∈ library.provisions symbols}) :
    Ensures supply (StoreProgram.each (Inventory.provide owner) symbols) c
      (supply.Yields fun _ m => c.Gains {fact | fact ∈ library.provisions symbols} ∅ m) := by
  induction symbols generalizing c with
  | nil => exact pure ((Gains.refl regular).congr (by simp [Artifact.provisions]))
  | cons identity rest ih =>
      have split : {fact | fact ∈ library.provisions (identity :: rest)} =
          {.present (.symbol identity)} ∪
            {.related (.library library) .provides (.symbol identity)} ∪
              {fact | fact ∈ library.provisions rest} := by
        ext fact
        simp only [Artifact.provisions, List.flatMap_cons, List.mem_append, List.mem_cons,
          List.not_mem_nil, or_false, Set.mem_union, Set.mem_singleton_iff, Set.mem_ofPred_eq]
      have first : {.present (.symbol identity)} ∪
          {.related (.library library) .provides (.symbol identity)} ⊆
            {fact | fact ∈ library.provisions (identity :: rest)} :=
              split ▸ Set.subset_union_left
      have others : {fact | fact ∈ library.provisions rest} ⊆
          {fact | fact ∈ library.provisions (identity :: rest)} :=
            split ▸ Set.subset_union_right
      have provide : Ensures supply (Inventory.provide owner identity) c (supply.Yields fun _ m =>
          c.Gains ({.present (.symbol identity)} ∪
            {.related (.library library) .provides (.symbol identity)}) ∅ m) := by
        refine yields_bind (P := fun id m => m.Denotes id (.symbol identity) ∧
          c.Gains {.present (.symbol identity)} ∅ m) ?_ ?_
        · refine mergedId (e := .symbol identity) regular rfl ?_
            (fun id m denotes gains => ⟨denotes, gains⟩) ?_
          · exact provides.spare regular (first (Or.inl rfl))
          · exact fun row lacking => ⟨⟨row, rfl⟩, lacking⟩
        · rintro id m ⟨target, gains⟩
          have source := denotes.mono gains.outgrowth.extended.nodes
          refine yields_bind (P := fun _ m' => m' = m.link ⟨owner, .provides, id⟩)
            (relate source target rfl fun _ => rfl) ?_
          rintro _ _ rfl
          have linked := gains.regular.gains_relation .provides source target rfl rfl nofun
          exact pure ((gains.trans linked).regroup (Set.union_empty _))
      refine yields_bind provide fun _ m gains => ?_
      have source := denotes.mono gains.outgrowth.extended.nodes
      refine yields_bind (ih gains.regular source (provides.step gains first others))
        fun _ m' gains' => ?_
      exact pure (((gains.trans gains').regroup (Set.union_empty _)).congr split.symm)

theorem upsertLibrary (regular : c.Regular) (library : Artifact) (symbols : List String)
    (provides : (LibraryEntry.mk library symbols).assertion.Accepted c.shown →
      supply.Provides c {fact | fact ∈ (LibraryEntry.mk library symbols).assertion.facts}) :
    Ensures supply (Inventory.upsertLibrary library symbols) c
      ((LibraryEntry.mk library symbols).assertion.Settled supply c fun _ _ => True) := by
  have split : {fact | fact ∈ (LibraryEntry.mk library symbols).assertion.facts} =
      {.present (.library library)} ∪ {fact | fact ∈ library.provisions symbols} := by
    ext fact
    simp [LibraryEntry.assertion]
  refine require (fun refused => ⟨rfl, Or.inr ⟨rfl, fun accepted => ?_⟩⟩) fun named => ?_
  · exact Bool.false_ne_true (refused.symm.trans (Bool.and_eq_true_iff.mp accepted.1).1)
  refine require (fun refused => ⟨rfl, Or.inr ⟨rfl, fun accepted => ?_⟩⟩) fun named' => ?_
  · exact Bool.false_ne_true (refused.symm.trans (Bool.and_eq_true_iff.mp accepted.1).2)
  have accepted : (LibraryEntry.mk library symbols).assertion.Accepted c.shown :=
    ⟨Bool.and_eq_true_iff.mpr ⟨named, named'⟩, nofun⟩
  have provides := split ▸ provides accepted
  refine block (P := fun _ m => c.Gains ({.present (.library library)} ∪
    {fact | fact ∈ library.provisions symbols}) ∅ m) ?_ (fun _ m gains => ?_) ?_
  · refine yields_bind (P := fun id m => m.Denotes id (.library library) ∧
      c.Gains {.present (.library library)} ∅ m) ?_ ?_
    · refine mergedId (e := .library library) regular rfl ?_ (fun id m denotes gains =>
        ⟨denotes, gains⟩) ?_
      · exact provides.spare regular (Or.inl rfl)
      · exact fun row lacking => ⟨⟨row, rfl⟩, lacking⟩
    · rintro id m ⟨denotes, gains⟩
      have later := provides.step gains Set.subset_union_left Set.subset_union_right
      refine yields_bind (eachProvide gains.regular denotes later) fun _ m' gains' => ?_
      exact pure ((gains.trans gains').regroup (Set.union_empty _))
  · exact ⟨accepted, gains.congr split.symm, trivial⟩
  · exact fun row lacking => ⟨rfl, Or.inl ⟨rfl, lacking⟩⟩

end Ensures

end BlastRadius
