import BlastRadius.Proofs.Impact.Climbing
import BlastRadius.Proofs.Inventory.Seeding

/-!
Vulnerabilities never match each other. An identity that is missing matches every other, so matching
is not transitive and no key rules it out: only the search of the block that registers does, and
what removals leave is no more than there was.
-/

namespace BlastRadius

theorem Node.eq_vulnerability_of_kind {node : Node} (own : node.kind = .vulnerability) :
    ∃ identity, node = .vulnerability identity := by
  cases node with
  | vulnerability identity => exact ⟨identity, rfl⟩
  | _ => cases own

namespace Inventory

theorem identityMatches_comm (a b : Option String) : identityMatches a b = identityMatches b a := by
  cases a <;> cases b <;> simp [identityMatches, Bool.beq_comm]

theorem identityMatches_self (identity : Option String) :
    identityMatches identity identity = true := by
  cases identity <;> simp [identityMatches]

theorem normalized_named {identity : Option String} {text : String}
    (same : normalized identity = some text) : text.isEmpty = false := by
  simpa using (Option.filter_eq_some_iff.mp same).2

end Inventory

open Inventory

namespace Contents

variable {c c' : Contents} {q : Call} {identity : Option String} {v g : NodeId}

def matching (c : Contents) (identity : Option String) : Set NodeId :=
  c.identified fun existing => identityMatches existing identity

/-- The contents with a vulnerability of a symbol, which is marked. -/
def register (c : Contents) (v : NodeId) (identity : Option String) (g : NodeId) : Contents :=
  ((c.mark {g}).insert v (.vulnerability identity)).link ⟨v, .threatens, g⟩

theorem free_of_matching (none : c.matching identity = ∅) (v : NodeId) :
    c.node? v ≠ some (.vulnerability identity) := by
  intro found
  exact Set.notMem_empty v (none ▸ ⟨_, found, identityMatches_self identity⟩)

end Contents

open Contents

/-- The block finds the first vulnerability that matches; if there is none and the symbol exists, it
registers one, unless identifiers have run out. -/
theorem registering_cases {c c' : Contents} {identity : Option String} {symbol : String}
    {x : Except StoreError (Option Registration)} (valid : c.Valid)
    (ran : (registering identity symbol).run.Runs Tried c x c') :
    (∃ v, IsLeast (c.matching identity) v ∧ x = .ok (some (.existing v)) ∧ c' = c) ∨
    c.matching identity = ∅ ∧
      (c.keyed (.symbol symbol) = ∅ ∧ x = .ok none ∧ c' = c ∨
        ∃ g ∈ c.keyed (.symbol symbol),
          (∃ v, c.node? v = none ∧
            (∀ key, (Node.vulnerability identity).key? = some key → c.keyed key = ∅) ∧
            x = .ok (some (.created v g)) ∧ c' = c.register v identity g) ∨
          ∃ row, x = .error (.idOverflow row) ∧ c.Exhausted) := by
  obtain ⟨found, m, searched, ran⟩ := runs_exceptT_bind.mp ran
  obtain ⟨rfl, rfl⟩ := (reads_findVulnerability _).unique_of_tried searched
  change (andThen _ (.ok (NodeId.listed (m.matching identity)).head?)).Runs _ _ _ _ at ran
  cases first : (NodeId.listed (m.matching identity)).head? with
  | some v =>
      rw [first] at ran
      obtain ⟨rfl, rfl⟩ := ran
      exact Or.inl ⟨v, NodeId.head?_listed.mp first, rfl, rfl⟩
  | none =>
      rw [first] at ran
      rw [List.head?_eq_none_iff, NodeId.listed_eq_nil] at first
      refine Or.inr ⟨first, ?_⟩
      obtain ⟨looked, m₁, look, ran⟩ := runs_exceptT_bind.mp ran
      obtain ⟨rfl, rfl⟩ := (Reads.findNode _).unique_of_tried look
      cases known : m₁.find? (.symbol symbol) with
      | none =>
          rw [known] at ran
          obtain ⟨rfl, rfl⟩ := ran
          exact Or.inl ⟨find?_eq_none.mp known, rfl, rfl⟩
      | some g =>
          have own := valid.find?_eq_some.mp known
          obtain ⟨target, held, key⟩ := id own
          refine Or.inr ⟨g, own, ?_⟩
          rw [known] at ran
          obtain ⟨registration, inserting, rfl⟩ := runs_exceptT_map.mp ran
          obtain ⟨count, m₂, marking, inserting⟩ := runs_exceptT_bind.mp inserting
          have live : ∀ id ∈ [g], id ∈ m₁.live := fun id mem =>
            List.mem_singleton.mp mem ▸ mem_live held
          obtain ⟨rfl, rfl⟩ := (Leads.call (q := .markNodes [g])
            (congrArg some (marking_of_live live))).unique_of_tried marking
          rw [show {id | id ∈ [g]} = ({g} : Set NodeId) by simp] at inserting
          obtain ⟨new, m₃, insertion, linking⟩ := runs_exceptT_bind.mp inserting
          rcases (runs_storeCall.mp insertion).insert_cases with
            ⟨v, fresh, keys, rfl, rfl⟩ | ⟨own, unique, ⟨v, node, taken, same⟩, _⟩ |
              ⟨row, rfl, full, rfl⟩
          · obtain ⟨added, m₄, linking, rest⟩ := runs_exceptT_bind.mp linking
            have linked := Leads.call (q := .insertEdge ⟨v, .threatens, g⟩) (congrArg some
              (linked_of_permits (insert_node?_self v (.vulnerability identity))
                (insert_node?_of_some fresh held) (by rw [← Node.kind_of_key? key]; rfl)))
            obtain ⟨rfl, rfl⟩ := linked.unique_of_tried linking
            obtain ⟨rfl, rfl⟩ := rest
            exact Or.inl ⟨v, fresh, keys, rfl, rfl⟩
          · cases identity with
            | none => cases unique
            | some text =>
                cases unique
                exact absurd (taken.trans (congrArg some (Node.eq_of_key? same)))
                  (free_of_matching first v)
          · obtain ⟨rfl, rfl⟩ := linking
            exact Or.inr ⟨row, rfl, full⟩

namespace Contents

variable {c c' : Contents} {q : Call} {identity : Option String} {v g : NodeId}

/-- Valid contents in which no two vulnerabilities match and no identity is empty. -/
structure Apart (c : Contents) : Prop where
  valid : c.Valid
  apart : ∀ {v w a b}, c.node? v = some (.vulnerability a) →
    c.node? w = some (.vulnerability b) →
    identityMatches a b = true → v = w
  named : ∀ {v text}, c.node? v = some (.vulnerability (some text)) → text.isEmpty = false

/-- Vulnerabilities still do not match, if they did not. -/
def ApartStay (c c' : Contents) : Prop := c.Apart → c'.Apart

namespace Apart

theorem empty : empty.Apart := ⟨empty_valid, nofun, nofun⟩

theorem of_fewer (apart : c.Apart) (valid : c'.Valid)
    (fewer : ∀ {v identity}, c'.node? v = some (.vulnerability identity) →
      c.node? v = some (.vulnerability identity)) : c'.Apart where
  valid := valid
  apart hv hw matched := apart.apart (fewer hv) (fewer hw) matched
  named hv := apart.named (fewer hv)

theorem change (apart : c.Apart) (change : c.Change q c')
    (other : ∀ node, q = .insertNode node → node.kind ≠ .vulnerability) : c'.Apart := by
  refine apart.of_fewer (change.valid apart.valid) fun {v identity} held => ?_
  cases change with
  | @node id new fresh free =>
      by_cases same : v = id
      · rw [same, insert_node?_self] at held
        exact absurd (congrArg Node.kind (Option.some.inj held)) (other new rfl)
      · rwa [insert_node?_of_ne _ same] at held
  | removal kind => exact (without_node?_eq_some.mp held).1
  | reset => cases held
  | _ => exact held

theorem register (apart : c.Apart) (fresh : c.node? v = none)
    (keys : ∀ key, (Node.vulnerability identity).key? = some key → c.keyed key = ∅)
    (symbol : g ∈ c.ofKind .symbol) (none : c.matching identity = ∅)
    (named : ∀ text, identity = some text → text.isEmpty = false) :
    (c.register v identity g).Apart := by
  have held {w : NodeId} {a : Option String}
      (found : (c.register v identity g).node? w = some (.vulnerability a)) :
      w = v ∧ a = identity ∨ c.node? w = some (.vulnerability a) := by
    change (c.insert v (.vulnerability identity)).node? w = _ at found
    by_cases same : w = v
    · rw [same, insert_node?_self, Option.some.injEq, Node.vulnerability.injEq] at found
      exact Or.inl ⟨same, found.symm⟩
    · rw [insert_node?_of_ne _ same] at found
      exact Or.inr found
  have unmatched {w : NodeId} {a : Option String} (found : c.node? w = some (.vulnerability a))
      (matched : identityMatches a identity = true) : False :=
    Set.notMem_empty w (none ▸ ⟨a, found, matched⟩)
  obtain ⟨target, known, own⟩ := id symbol
  have marked : (c.mark {g}).Valid :=
    apart.valid.mark (Set.singleton_subset_iff.mpr (mem_live known))
  refine ⟨(marked.insert fresh keys).link (insert_node?_self v _)
    (insert_node?_of_some fresh known)
    (by rw [own]; rfl), fun {x w a b} hx hw matched => ?_, fun {w text} hw => ?_⟩
  · rcases held hx with ⟨newX, rfl⟩ | old <;> rcases held hw with ⟨newW, rfl⟩ | old'
    · exact newX.trans newW.symm
    · exact (unmatched old' (identityMatches_comm _ _ ▸ matched)).elim
    · exact (unmatched old matched).elim
    · exact apart.apart old old' matched
  · rcases held hw with ⟨rfl, same⟩ | hw
    · exact named text same.symm
    · exact apart.named hw

theorem alone_or_identified (apart : c.Apart) :
    (∃ v, c.node? v = some (.vulnerability none) ∧ c.ofKind .vulnerability = {v}) ∨
    ∀ v ∈ c.ofKind .vulnerability, ∃ text, c.node? v = some (.vulnerability (some text)) ∧
      text.isEmpty = false ∧ ∀ w, c.node? w = some (.vulnerability (some text)) → w = v := by
  by_cases unidentified : ∃ v, c.node? v = some (.vulnerability none)
  · obtain ⟨v, found⟩ := unidentified
    refine Or.inl ⟨v, found, Set.eq_singleton_iff_unique_mem.mpr
      ⟨⟨_, found, rfl⟩, fun w own => ?_⟩⟩
    obtain ⟨node, known, kind⟩ := own
    obtain ⟨identity, rfl⟩ := Node.eq_vulnerability_of_kind kind
    exact (apart.apart found known rfl).symm
  · refine Or.inr fun v own => ?_
    obtain ⟨node, known, kind⟩ := own
    obtain ⟨_ | text, rfl⟩ := Node.eq_vulnerability_of_kind kind
    · exact absurd ⟨v, known⟩ unidentified
    · exact ⟨text, known, apart.named known,
        fun w other => apart.apart other known (identityMatches_self _)⟩

end Apart

end Contents

theorem registering_apartStay (identity : Option String) (symbol : String) :
    KeepsBlock ApartStay (registering (normalized identity) symbol) := by
  intro c x c' ran apart
  rcases registering_cases apart.valid ran with
    ⟨v, _, rfl, rfl⟩ | ⟨none, ⟨_, rfl, rfl⟩ | ⟨g, ⟨node, found, key⟩, created⟩⟩
  · exact apart
  · exact apart
  · rcases created with ⟨v, fresh, keys, rfl, rfl⟩ | ⟨row, rfl, _⟩
    · exact apart.register fresh keys ⟨node, found, (Node.kind_of_key? key).symm⟩ none
        fun text same => normalized_named same
    · exact apart

theorem kept_apart : Kept ApartStay := by
  have refl (c : Contents) : c.ApartStay c := id
  have trans {a b c : Contents} (first : a.ApartStay b) (second : b.ApartStay c) : a.ApartStay c :=
    second ∘ first
  have call {q : Call} (other : ∀ node, q = .insertNode node → node.kind ≠ .vulnerability) :
      Keeps ApartStay (StoreProgram.call q) :=
    keeps_call fun change apart => apart.change change other
  refine ⟨refl, trans, fun plain change apart => apart.change change ?_, fun owner _ => ?_,
    fun request => ?_, registering_apartStay⟩
  · rintro node rfl
    exact beq_eq_false_iff_ne.mp (Call.untouched_of_plain plain).2.2
  · exact keeps_exposing refl trans (call (by rintro _ ⟨⟩; nofun)) fun _ => call nofun
  · exact keeps_recording refl trans (call (by rintro _ ⟨⟩; nofun)) fun _ _ => call nofun

theorem createVulnerability_cases {c c' : Contents} {identity : Option String} {symbol : String}
    {x : Except ImpactError Answer} (valid : c.Valid)
    (ran : (Operation.createVulnerability identity symbol).perform.run.Runs Tried c x c') :
    (∃ v, IsLeast (c.matching (normalized identity)) v ∧
      x = .ok (.registration (.existing v)) ∧ c' = c) ∨
    c.matching (normalized identity) = ∅ ∧
      (c.keyed (.symbol symbol) = ∅ ∧ x = .error (.notFound .symbol symbol) ∧ c' = c ∨
        ∃ g ∈ c.keyed (.symbol symbol),
          (∃ v, c.node? v = none ∧ x = .ok (.registration (.created v g)) ∧
            c' = c.register v (normalized identity) g) ∨
          ∃ row, x = .error (.store (.idOverflow row)) ∧ c.Exhausted ∧ c' = c) := by
  obtain ⟨created, creating, rfl⟩ := runs_exceptT_map.mp ran
  obtain ⟨registered, m, registering, rest⟩ := runs_exceptT_bind.mp creating
  obtain ⟨outcome, block, rfl⟩ := Program.runs_map.mp registering
  obtain ⟨m', inner, rfl⟩ := runs_storeAtomically.mp block
  rcases registering_cases valid inner with
    ⟨v, least, rfl, rfl⟩ | ⟨none, ⟨unknown, rfl, rfl⟩ | ⟨g, own, created⟩⟩
  · obtain ⟨rfl, rfl⟩ := rest
    exact Or.inl ⟨v, least, rfl, rfl⟩
  · obtain ⟨rfl, rfl⟩ := rest
    exact Or.inr ⟨none, Or.inl ⟨unknown, rfl, rfl⟩⟩
  · refine Or.inr ⟨none, Or.inr ⟨g, own, ?_⟩⟩
    rcases created with ⟨v, fresh, _, rfl, rfl⟩ | ⟨row, rfl, full⟩
    · obtain ⟨rfl, rfl⟩ := rest
      exact Or.inl ⟨v, fresh, rfl, rfl⟩
    · obtain ⟨rfl, rfl⟩ := rest
      exact Or.inr ⟨row, rfl, full, rfl⟩

namespace Medium

variable {medium : Medium} {operations : List Operation}

theorem contents_apart (fits : medium.Fits operations) : (medium.contents operations).Apart := by
  refine contents_invariant (I := Apart) .empty (fun operation => ?_) fits
  exact operation.keeps kept_apart
    (fun kind _ => keeps_call fun change apart => apart.change change nofun)
    fun _ => keeps_call fun change apart => apart.change change nofun

/-- Stored vulnerabilities never match: one has no identity and is alone, or all have identities of
their own, none of them empty. Registering a vulnerability answers with one that matches, and
changes nothing, exactly when there is one. Otherwise the symbol must exist: a new node threatens it
by a new edge, and it is marked, unless identifiers have run out. -/
theorem vulnerabilities_never_match (medium : Medium) {operations : List Operation}
    (fits : medium.Fits operations) :
    let before := medium.contents operations
    (∀ v w a b, before.node? v = some (.vulnerability a) →
      before.node? w = some (.vulnerability b) →
      v ≠ w → identityMatches a b = false) ∧
    ((∃ v, before.node? v = some (.vulnerability none) ∧ before.ofKind .vulnerability = {v}) ∨
      ∀ v ∈ before.ofKind .vulnerability, ∃ text,
        before.node? v = some (.vulnerability (some text)) ∧ text.isEmpty = false ∧
        ∀ w, before.node? w = some (.vulnerability (some text)) → w = v) ∧
    ∀ identity symbol, medium.Fits (operations ++ [.createVulnerability identity symbol]) →
      let after := medium.contents (operations ++ [.createVulnerability identity symbol])
      let answer := ((Operation.createVulnerability identity symbol).on medium.store
        (medium.reached operations)).1
      let matching := before.matching (normalized identity)
      (matching.Nonempty ↔ ∃ v, answer = .ok (.registration (.existing v))) ∧
      (∀ v, answer = .ok (.registration (.existing v)) → v ∈ matching ∧ after = before) ∧
      (matching = ∅ →
        (before.keyed (.symbol symbol) = ∅ →
          answer = .error (.notFound .symbol symbol) ∧ after = before) ∧
        ∀ g ∈ before.keyed (.symbol symbol),
          (∃ v, before.node? v = none ∧ answer = .ok (.registration (.created v g)) ∧
            after = ((before.mark {g}).insert v (.vulnerability (normalized identity))).link
              ⟨v, .threatens, g⟩) ∨
          ∃ row, answer = .error (.store (.idOverflow row)) ∧ before.Exhausted ∧
            after = before) := by
  intro before
  have apart : before.Apart := contents_apart fits
  refine ⟨fun v w a b hv hw distinct => ?_, apart.alone_or_identified,
    fun identity symbol more => ?_⟩
  · exact Bool.eq_false_iff.mpr fun matched => distinct (apart.apart hv hw matched)
  intro after answer matching
  have ran : (Operation.createVulnerability identity symbol).perform.run.Runs Tried before answer
      after := (performed more (reached_sound fits)).1
  -- One matches; or none does and the symbol is unknown; or none does and it is known.
  rcases createVulnerability_cases apart.valid ran with
    ⟨v, least, same, unchanged⟩ | ⟨none, ⟨unknown, same, unchanged⟩ |
      ⟨g, own, created⟩⟩
  · have nonempty : matching.Nonempty := ⟨v, least.1⟩
    refine ⟨iff_of_true nonempty ⟨v, same⟩, fun w found => ?_, fun none => ?_⟩
    · have one : v = w := by simpa using same.symm.trans found
      exact ⟨one ▸ least.1, unchanged⟩
    · exact absurd none nonempty.ne_empty
  · have empty : ¬ matching.Nonempty := Set.not_nonempty_iff_eq_empty.mpr none
    refine ⟨iff_of_false empty ?_, ?_, fun _ =>
      ⟨fun _ => ⟨same, unchanged⟩, fun g own => ?_⟩⟩
    · rintro ⟨v, found⟩
      cases same.symm.trans found
    · intro v found
      cases same.symm.trans found
    · exact absurd (unknown ▸ own) (Set.notMem_empty g)
  · have empty : ¬ matching.Nonempty := Set.not_nonempty_iff_eq_empty.mpr none
    have other (v : NodeId) : answer ≠ .ok (.registration (.existing v)) := by
      intro found
      rcases created with ⟨_, _, same, _⟩ | ⟨_, same, _⟩
      · cases same.symm.trans found
      · cases same.symm.trans found
    refine ⟨iff_of_false empty fun ⟨v, found⟩ => other v found,
      fun v found => absurd found (other v), fun _ => ⟨fun unknown => ?_, fun h own' => ?_⟩⟩
    · exact absurd (unknown ▸ own) (Set.notMem_empty g)
    · rw [apart.valid.key_unique _ own' own]
      exact created

/-- The first vulnerability outlives its symbol and does not match the second. -/
theorem vulnerabilities_never_match_after_reset :
    let operations : List Operation := [.upsertSymbol "parse",
      .createVulnerability (some "weakness") "parse", .resetDomain .callGraph,
        .upsertSymbol "print"]
    let last : Operation := .createVulnerability (some "flaw") "print"
    let before := Medium.database.contents operations
    Medium.database.Fits (operations ++ [last]) ∧
    (last.on Database.store (Medium.database.reached operations)).1.toOption =
      some (.registration (.created ⟨4⟩ ⟨3⟩)) ∧
    before.matching (some "flaw") = ∅ ∧
    Medium.database.contents (operations ++ [last]) =
      ((before.mark {⟨3⟩}).insert ⟨4⟩ (.vulnerability (some "flaw"))).link
        ⟨⟨4⟩, .threatens, ⟨3⟩⟩ := by
  intro operations last before
  have fits : Medium.database.Fits (operations ++ [last]) := fun _ _ _ => trivial
  have answered : (last.on Database.store (Medium.database.reached operations)).1.toOption =
      some (.registration (.created ⟨4⟩ ⟨3⟩)) := by decide +kernel
  have symbol : before.node? ⟨3⟩ = some (.symbol "print") := by decide +kernel
  obtain ⟨-, -, registering⟩ :=
    vulnerabilities_never_match .database (fits.before (List.prefix_append operations [last]))
  obtain ⟨existing, -, created⟩ := registering (some "flaw") "print" fits
  have none : before.matching (some "flaw") = ∅ := by
    refine Set.not_nonempty_iff_eq_empty.mp fun nonempty => ?_
    obtain ⟨v, same⟩ := existing.mp nonempty
    have two := (congrArg Except.toOption same).symm.trans answered
    cases two
  refine ⟨fits, answered, none, ?_⟩
  rcases (created none).2 ⟨3⟩ ⟨_, symbol, rfl⟩ with ⟨v, _, same, after⟩ |
    ⟨row, same, _⟩
  · have two := (congrArg Except.toOption same).symm.trans answered
    cases two
    exact after
  · have two := (congrArg Except.toOption same).symm.trans answered
    cases two

/-- No vulnerability matches and the symbol exists, but there is no identifier left. -/
theorem createVulnerability_exhausted :
    let operation : Operation := .createVulnerability none "parse"
    let before := Medium.database.contents Operation.exhausting
    Medium.database.Fits (Operation.exhausting ++ [operation]) ∧
    before.matching none = ∅ ∧
    NodeId.ofNat (NodeId.count - 1) ∈ before.keyed (.symbol "parse") ∧
    (operation.on Database.store (Medium.database.reached Operation.exhausting)).1 =
      .error (.store (.idOverflow NodeId.count)) := by
  intro operation before
  refine ⟨fun _ _ _ => trivial, Set.eq_empty_iff_forall_notMem.mpr fun v found => ?_, ?_, ?_⟩
  · obtain ⟨_, own, -⟩ := found
    rw [show before = _ from contents_exhausting] at own
    rcases Database.node_of_rows own with same | same <;> cases same
  · rw [show before = _ from contents_exhausting]
    exact ⟨.symbol "parse", by decide +kernel, rfl⟩
  · rw [Medium.reached_exhausting]
    rfl

end Medium

end BlastRadius
