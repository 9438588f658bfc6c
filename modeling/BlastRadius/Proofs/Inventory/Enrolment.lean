import BlastRadius.Proofs.Impact.Capacity
import BlastRadius.Proofs.Inventory.Ledger
import BlastRadius.Proofs.Inventory.Registration
import BlastRadius.Proofs.Parity.Loading

/-!
The vulnerabilities of a fixture, registered one after the other. What they lead to is determined up
to the identifiers of new nodes, and registered again they are all found.
-/

namespace BlastRadius

open Inventory (normalized identityMatches)

namespace Contents

variable {c c' m d : Contents} {identity : Option String} {v g : NodeId}
    {entry : VulnerabilityEntry}
  {entries : List VulnerabilityEntry} {f : Renaming}

/-- One vulnerability is there already, or it is registered for an existing symbol. -/
def Registers (c : Contents) (entry : VulnerabilityEntry) (m : Contents) : Prop :=
  (c.matching (normalized entry.identity)).Nonempty ∧ m = c ∨
  c.matching (normalized entry.identity) = ∅ ∧ ∃ g ∈ c.keyed (.symbol entry.symbol),
    ∃ v, c.node? v = none ∧ m = c.register v (normalized entry.identity) g

/-- Vulnerabilities are registered one after the other. -/
def RegistersAll : Contents → List VulnerabilityEntry → Contents → Prop
  | c, [], m => m = c
  | c, entry :: rest, d => ∃ m, c.Registers entry m ∧ m.RegistersAll rest d

/-- Nodes, edges and bindings that are added and show nothing. -/
structure Silent (c c' : Contents) : Prop where
  placed : c'.Placed
  shown : c'.shown = c.shown
  extended : c.ExtendedBy c'
  bindings : c.BindingsKept c'

namespace Silent

theorem refl (placed : c.Placed) : c.Silent c := ⟨placed, rfl, .refl c, .refl placed.valid⟩

theorem trans (first : c.Silent m) (second : m.Silent d) : c.Silent d where
  placed := second.placed
  shown := second.shown.trans first.shown
  extended := first.extended.trans second.extended
  bindings := first.bindings.trans second.bindings

theorem change {q : Call} (placed : c.Placed) (change : c.Change q c') (stays : ShownStay c c')
    (adds : q.removes = false) (frame : q.touches .binding .specializesInto = false) :
      c.Silent c' where
  placed := (stays placed).1
  shown := (stays placed).2
  extended := change.extendedBy adds
  bindings := change.bindingsKept placed.valid frame

end Silent

theorem keys_of_matching (none : c.matching identity = ∅) (key : NodeKey)
    (own : (Node.vulnerability identity).key? = some key) : c.keyed key = ∅ := by
  refine Set.eq_empty_iff_forall_notMem.mpr fun v held => ?_
  rw [mem_keyed, ← Node.eq_of_key? own] at held
  exact free_of_matching none v held

theorem silent_register (placed : c.Placed) (fresh : c.node? v = none)
    (symbol : g ∈ c.ofKind .symbol) (none : c.matching identity = ∅) :
    c.Silent (c.register v identity g) := by
  obtain ⟨target, held, kind⟩ := id symbol
  have marks : c.Change (.markNodes [g]) (c.mark {g}) := by
    rw [show ({g} : Set NodeId) = {id | id ∈ [g]} by simp]
    exact .mark fun id mem => List.mem_singleton.mp mem ▸ mem_live held
  have inserts : (c.mark {g}).Change (.insertNode (.vulnerability identity))
      ((c.mark {g}).insert v (.vulnerability identity)) := .node fresh (keys_of_matching none)
  have links : ((c.mark {g}).insert v (.vulnerability identity)).Change
      (.insertEdge ⟨v, .threatens, g⟩) (c.register v identity g) :=
    .edge (insert_node?_self v _) (insert_node?_of_some fresh held) (by rw [kind]; rfl)
  have first := Silent.change placed marks (.marks rfl marks) rfl rfl
  have second := Silent.change first.placed inserts (.vulnerability inserts) rfl rfl
  exact (first.trans second).trans (.change second.placed links (.threatens links) rfl rfl)

theorem Registers.silent (registers : c.Registers entry m) (placed : c.Placed) : c.Silent m := by
  rcases registers with ⟨_, rfl⟩ | ⟨none, g, ⟨node, found, own⟩, v, fresh, rfl⟩
  · exact .refl placed
  · exact silent_register placed fresh ⟨node, found, (Node.kind_of_key? own).symm⟩ none

theorem RegistersAll.silent (registers : c.RegistersAll entries d) (placed : c.Placed) :
    c.Silent d := by
  induction entries generalizing c with
  | nil =>
      obtain rfl := registers
      exact .refl placed
  | cons entry rest ih =>
      obtain ⟨m, first, later⟩ := registers
      have silent := first.silent placed
      exact silent.trans (ih later silent.placed)

theorem ExtendedBy.matching (extended : c.ExtendedBy c') (identity : Option String) :
    c.matching identity ⊆ c'.matching identity :=
  fun _ ⟨existing, found, same⟩ => ⟨existing, extended.nodes found, same⟩

theorem Registers.matching (registers : c.Registers entry m) :
    (m.matching (normalized entry.identity)).Nonempty := by
  rcases registers with ⟨nonempty, rfl⟩ | ⟨_, g, _, v, _, rfl⟩
  · exact nonempty
  · exact ⟨v, _, insert_node?_self v _, Inventory.identityMatches_self _⟩

theorem registersAll_of_matching
    (all : ∀ entry ∈ entries, (c.matching (normalized entry.identity)).Nonempty) :
    c.RegistersAll entries c := by
  induction entries with
  | nil => rfl
  | cons entry rest ih =>
      obtain ⟨here, later⟩ := List.forall_mem_cons.mp all
      exact ⟨c, Or.inl ⟨here, rfl⟩, ih later⟩

theorem RegistersAll.matching (registers : c.RegistersAll entries d) (placed : c.Placed) :
    ∀ entry ∈ entries, (d.matching (normalized entry.identity)).Nonempty := by
  induction entries generalizing c with
  | nil => exact nofun
  | cons entry rest ih =>
      obtain ⟨m, first, later⟩ := registers
      have placed' := (first.silent placed).placed
      refine List.forall_mem_cons.mpr ⟨?_, ih later placed'⟩
      exact first.matching.mono ((later.silent placed').extended.matching _)

theorem RegistersAll.again (registers : c.RegistersAll entries d) (placed : c.Placed) :
    d.RegistersAll entries d :=
  registersAll_of_matching (registers.matching placed)

theorem rename_matching (identity : Option String) :
    (c.rename f).matching identity = f '' c.matching identity := rename_identified _

theorem rename_keyed_symbol (symbol : String) :
    (c.rename f).keyed (.symbol symbol) = f '' c.keyed (.symbol symbol) :=
      rename_keyed (.symbol symbol)

theorem rename_register (v : NodeId) (identity : Option String) (g : NodeId) :
    (c.register v identity g).rename f = (c.rename f).register (f v) identity (f g) := by
  rw [register, rename_link, rename_insert, rename_mark, Set.image_singleton]
  rfl

theorem Placed.rename_congr (placed : c.Placed) {g : Renaming}
    (same : ∀ id ∈ c.live, g id = f id) :
    c.rename g = c.rename f :=
  Contents.rename_congr placed.valid same fun _ _ _ found =>
    ofKind_subset_live _ (placed.component found)

theorem Placed.rename_fixed (placed : c.Placed) (fixes : ∀ id ∈ c.live, f id = id) :
    c.rename f = c := by
  rw [placed.rename_congr (f := Equiv.refl NodeId) fixes]
  refine Contents.ext (funext fun id => ?_) rfl rfl
  cases found : c.node? id with
  | none => simp [rename_node?_apply, found]
  | some node => cases node <;> simp [rename_node?_apply, found, Node.rename]

theorem Registers.created (registers : c.Registers entry m)
    (none : c.matching (normalized entry.identity) = ∅) :
      ∃ g ∈ c.keyed (.symbol entry.symbol),
      ∃ v, c.node? v = .none ∧ m = c.register v (normalized entry.identity) g := by
  rcases registers with ⟨nonempty, _⟩ | ⟨_, created⟩
  · exact absurd none nonempty.ne_empty
  · exact created

theorem Registers.exists_renaming (registers : c.Registers entry m) (placed : c.Placed)
    (others : (c.rename f).Registers entry d) :
    ∃ f' : Renaming, (∀ id ∈ c.live, f' id = f id) ∧ d = m.rename f' := by
  rcases others with ⟨nonempty, rfl⟩ | ⟨none, g', own', v', fresh', rfl⟩
  · rw [rename_matching, Set.image_nonempty] at nonempty
    rcases registers with ⟨_, rfl⟩ | ⟨none, _⟩
    · exact ⟨f, fun _ _ => rfl, rfl⟩
    · exact absurd none nonempty.ne_empty
  · rw [rename_matching, Set.image_eq_empty] at none
    obtain ⟨g, own, v, fresh, rfl⟩ := registers.created none
    have same {id : NodeId} (live : id ∈ c.live) : f.join v v' id = f id :=
      Renaming.join_of_live fresh fresh' live
    have symbol : g' = f g := by
      refine (placed.valid.rename f).key_unique _ own' ?_
      exact rename_keyed_symbol entry.symbol ▸ Set.mem_image_of_mem f own
    obtain ⟨node, held, _⟩ := own
    refine ⟨f.join v v', fun id live => same live, ?_⟩
    rw [rename_register, placed.rename_congr fun id live => same live, f.join_self,
      same (mem_live held), symbol]

end Contents

open Contents

namespace Ensures

variable {supply : Supply} {c d : Contents} {f : Renaming} {entries : List VulnerabilityEntry}

/-- What is wanted of the block that registers a vulnerability. -/
def Enrolled (c : Contents) (entry : VulnerabilityEntry) (registered : Option Registration)
    (m : Contents) : Prop :=
  match registered with
  | some _ => c.Registers entry m
  | none => c.matching (normalized entry.identity) = ∅ ∧ c.keyed (.symbol entry.symbol) = ∅

theorem insertVulnerability {identity : Option String} {g : NodeId}
    (symbol : g ∈ c.ofKind .symbol) (none : c.matching identity = ∅)
    (spare : supply.spare (c.mark {g})) :
    Ensures supply (Inventory.insertVulnerability identity g) c
      (supply.Yields fun _ m => ∃ v, c.node? v = .none ∧ m = c.register v identity g) := by
  obtain ⟨target, held, kind⟩ := id symbol
  have existing : ∀ id ∈ [g], id ∈ c.live :=
    fun id mem => List.mem_singleton.mp mem ▸ mem_live held
  have one : {id | id ∈ [g]} = ({g} : Set NodeId) := by simp
  refine leads_bind (Leads.call (q := .markNodes [g]) (congrArg some (marking_of_live existing))) ?_
  rw [one]
  refine yields_bind (P := fun v m => c.node? v = .none ∧
    m = (c.mark {g}).insert v (.vulnerability identity)) (insertNode (keys_of_matching none) spare
      (fun v fresh => ⟨fresh, rfl⟩) fun short row => ⟨⟨row, rfl⟩, _, short⟩) ?_
  rintro v _ ⟨fresh, rfl⟩
  have linked := Leads.call (q := .insertEdge ⟨v, .threatens, g⟩)
      (congrArg some (linked_of_permits
    (insert_node?_self (c := c.mark {g}) v (.vulnerability identity))
    (insert_node?_of_some (c := c.mark {g}) fresh held) (by rw [kind]; rfl)))
  exact leads_bind linked (pure ⟨v, fresh, rfl⟩)

theorem registering (valid : c.Valid) (entry : VulnerabilityEntry)
    (spare : c.matching (normalized entry.identity) = ∅ →
      ∀ g ∈ c.keyed (.symbol entry.symbol), supply.spare (c.mark {g})) :
    Ensures supply (Inventory.registering (normalized entry.identity) entry.symbol) c
      (supply.Yields (Enrolled c entry)) := by
  refine leads_bind (Inventory.reads_findVulnerability _) ?_
  cases first : (NodeId.listed (c.identified fun existing =>
      identityMatches existing (normalized entry.identity))).head? with
  | some v =>
      have found : v ∈ c.matching (normalized entry.identity) :=
        NodeId.mem_listed.mp (List.mem_of_mem_head? first)
      exact pure (Or.inl ⟨⟨v, found⟩, rfl⟩)
  | none =>
      rw [List.head?_eq_none_iff, NodeId.listed_eq_nil] at first
      refine leads_bind (Reads.findNode _) ?_
      cases known : c.find? (.symbol entry.symbol) with
      | none => exact pure ⟨first, find?_eq_none.mp known⟩
      | some g =>
          have own := valid.find?_eq_some.mp known
          obtain ⟨node, found, key⟩ := id own
          refine map ?_
          refine (insertVulnerability ⟨node, found, (Node.kind_of_key? key).symm⟩ first
            (spare first g own)).mono fun x m holds => ?_
          cases x with
          | ok registration => exact Or.inr ⟨first, g, own, holds⟩
          | error error => exact holds

theorem createVulnerability (valid : c.Valid) (entry : VulnerabilityEntry)
    (spare : c.matching (normalized entry.identity) = ∅ →
      ∀ g ∈ c.keyed (.symbol entry.symbol), supply.spare (c.mark {g})) :
    Ensures supply (Inventory.createVulnerability entry.identity entry.symbol) c fun x m =>
      match x with
      | .ok _ => c.Registers entry m
      | .error _ => supply.Lacking ∨
          c.matching (normalized entry.identity) = ∅ ∧
            c.keyed (.symbol entry.symbol) = ∅ := by
  refine bind (P := fun x m => match x with
    | .ok registered => Enrolled c entry registered m
    | .error _ => supply.Lacking) (block (registering valid entry spare)
        (fun _ _ => id) fun _ => id) ?_ ?_
  · rintro (_ | registration) m enrolled
    · exact throw (Or.inr enrolled)
    · exact pure enrolled
  · exact fun _ _ lacking => Or.inl lacking

theorem registerEach (placed : c.Placed) (entries : List VulnerabilityEntry) :
    Ensures .trying (Inventory.forEach
      (fun entry => Inventory.createVulnerability entry.identity entry.symbol) entries) c
      fun x m => x = .ok () → c.RegistersAll entries m := by
  induction entries generalizing c with
  | nil => exact pure fun _ => rfl
  | cons entry rest ih =>
      refine (createVulnerability placed.valid entry fun _ _ _ => trivial).bind ?_
        fun _ _ _ => nofun
      intro _ m registers
      exact (ih (registers.silent placed).placed).mono fun x d later done =>
        ⟨m, registers, later done⟩

/-- Under other identifiers the same is registered, with identifiers for as many nodes. -/
theorem registerEach_renamed (placed : c.Placed) (registers : c.RegistersAll entries d)
    (f : Renaming) :
    Ensures (.upTo d.live.ncard) (Inventory.forEach
      (fun entry => Inventory.createVulnerability entry.identity entry.symbol) entries) (c.rename f)
      fun x m => x = .ok () ∧ ∃ f' : Renaming, (∀ id ∈ c.live, f' id = f id) ∧
        m = d.rename f' := by
  induction entries generalizing c f with
  | nil =>
      obtain rfl := registers
      exact pure ⟨rfl, f, fun _ _ => rfl, rfl⟩
  | cons entry rest ih =>
      obtain ⟨m, first, later⟩ := registers
      have silent := first.silent placed
      have created (none : (c.rename f).matching (normalized entry.identity) = ∅) :=
        first.created (Set.image_eq_empty.mp ((rename_matching _).symm.trans none))
      refine (createVulnerability (placed.valid.rename f) entry ?_).bind ?_ ?_
      · intro none g _
        obtain ⟨_, _, v, fresh, rfl⟩ := created none
        change (c.rename f).live.ncard < d.live.ncard
        have more := Set.ncard_le_ncard (later.silent silent.placed).extended.live
        have one := ncard_live_insert fresh (.vulnerability (normalized entry.identity))
        rw [rename_live, NodeId.ncard_image]
        exact (Nat.lt_of_succ_le one.ge).trans_le more
      · intro _ _ others
        obtain ⟨f₁, agrees₁, rfl⟩ := first.exists_renaming placed others
        refine (ih silent.placed later f₁).mono ?_
        rintro _ _ ⟨rfl, f', agrees, rfl⟩
        refine ⟨rfl, f', fun id live => ?_, rfl⟩
        exact (agrees id (silent.extended.live live)).trans (agrees₁ id live)
      · rintro _ _ (⟨_, never⟩ | ⟨none, missing⟩)
        · exact never.elim
        · obtain ⟨g, own, _⟩ := created none
          rw [rename_keyed_symbol, Set.image_eq_empty] at missing
          exact absurd missing (Set.Nonempty.ne_empty ⟨g, own⟩)

end Ensures

noncomputable def Contents.measure (c : Contents) : FixtureSummary :=
  ⟨c.live.ncard, c.edges.ncard⟩

theorem Contents.rename_measure {c : Contents} (f : Renaming) :
    (c.rename f).measure = c.measure := by
  rw [measure, rename_live, NodeId.ncard_image, rename_edges,
    Set.ncard_image_of_injective _ Edge.rename_injective]
  rfl

theorem Ensures.measured {supply : Supply} {c : Contents} :
    Ensures supply Inventory.measured c fun x m => x = .ok c.measure ∧ m = c := by
  have loads : Ensures supply (ImpactProgram.call .loadGraph) c fun x m =>
      ∃ g : DependencyGraph, x = .ok g ∧ g.Valid ∧ g.contents = c ∧ m = c := by
    refine ofStore ⟨nofun, fun r c' step => ?_⟩
    rcases step with ⟨⟨g, rfl, valid, holds⟩, rfl⟩ | ⟨asks, _⟩
    · exact ⟨g, rfl, valid, holds, rfl⟩
    · cases asks
  refine loads.bind ?_ ?_
  · rintro _ _ ⟨g, ⟨⟩, valid, rfl, rfl⟩
    refine pure ⟨?_, rfl⟩
    rw [valid.length_nodes, valid.length_edges]
    rfl
  · rintro _ _ ⟨_, ⟨⟩, _⟩

end BlastRadius
