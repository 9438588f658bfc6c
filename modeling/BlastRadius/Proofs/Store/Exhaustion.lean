import BlastRadius.Proofs.Store.Medium

/-!
Runs for which the identifiers may run out. The database then refuses a new node and stays as it
was. A graph in memory with as many nodes as there are identifiers takes no further node, so that
there only runs with an identifier for every new node are considered.
-/

namespace BlastRadius

/-- Whether a call may add nodes of a kind or edges of a relation, or remove anything. -/
def Call.touches (kind : NodeKind) (relation : Relation) : Call → Bool
  | insertNode node => node.kind == kind
  | insertEdge e => e.relation == relation
  | removeKind _ | reset => true
  | _ => false

/-- Whether a call removes nodes. -/
def Call.removes : Call → Bool
  | removeKind _ | reset => true
  | _ => false

namespace Contents

/-- There are other contents with more nodes and edges. -/
structure ExtendedBy (c c' : Contents) : Prop where
  nodes {id : NodeId} {node : Node} : c.node? id = some node → c'.node? id = some node
  edges : c.edges ⊆ c'.edges

theorem ExtendedBy.refl (c : Contents) : c.ExtendedBy c := ⟨id, subset_rfl⟩

theorem ExtendedBy.trans {c c' c'' : Contents} (first : c.ExtendedBy c')
    (second : c'.ExtendedBy c'') : c.ExtendedBy c'' :=
  ⟨second.nodes ∘ first.nodes, first.edges.trans second.edges⟩

variable {c c' : Contents} {q : Call} {r : Except StoreError q.Reply}

/-- The greatest identifier is in use. -/
def Exhausted (c : Contents) : Prop := NodeId.ofNat (NodeId.count - 1) ∈ c.live

/-- What a store may answer and hold afterwards when its identifiers may run out. -/
def Tried : Steps Contents := fun c q r c' =>
  c.Step q r c' ∨ q.inserts = true ∧ (∃ row, r = .error (.idOverflow row)) ∧
    c.Exhausted ∧ c' = c

/-- How a call may change the contents, whatever its answer is. -/
inductive Change (c : Contents) : Call → Contents → Prop where
  | none (q : Call) : Change c q c
  | node {id : NodeId} {node : Node} (fresh : c.node? id = none)
      (free : ∀ key, node.key? = some key → c.keyed key = ∅) :
      Change c (.insertNode node) (c.insert id node)
  | edge {e : Edge} {source target : Node} (hs : c.node? e.source = some source)
      (ht : c.node? e.target = some target)
      (permitted : e.relation.permits source.kind target.kind = true) :
      Change c (.insertEdge e) (c.link e)
  | mark {ids : List NodeId} (existing : ∀ id ∈ ids, id ∈ c.live) :
      Change c (.markNodes ids) (c.mark {id | id ∈ ids})
  | unmark : Change c .clearMarks c.unmarked
  | removal (kind : NodeKind) : Change c (.removeKind kind) (c.without kind)
  | reset : Change c .reset empty

theorem linked_cases (e : Edge) :
    (∃ source target, c.node? e.source = some source ∧ c.node? e.target = some target ∧
      e.relation.permits source.kind target.kind = true ∧
      c.linked e = (.ok (c.lacks e), c.link e)) ∨ ∃ error, c.linked e = (.error error, c) := by
  rw [linked]
  rcases hs : c.node? e.source with _ | source
  · exact Or.inr ⟨_, rfl⟩
  · rcases ht : c.node? e.target with _ | target
    · exact Or.inr ⟨_, rfl⟩
    · dsimp only
      split
      · exact Or.inl ⟨source, target, rfl, rfl, ‹_›, rfl⟩
      · exact Or.inr ⟨_, rfl⟩

theorem linked_change (e : Edge) : c.Change (.insertEdge e) (c.linked e).2 := by
  rcases c.linked_cases e with ⟨source, target, hs, ht, permitted, same⟩ | ⟨error, same⟩
  · exact same ▸ .edge hs ht permitted
  · exact same ▸ .none _

theorem marking_change (ids : List NodeId) : c.Change (.markNodes ids) (c.marking ids).2 := by
  rw [marking]
  cases missing : ids.find? fun id => (c.node? id).isNone with
  | some id => exact .none _
  | none =>
      refine .mark fun id mem => ?_
      have found := List.find?_eq_none.mp missing id mem
      exact not_not.mp fun dead => found (by simp [not_mem_live.mp dead])

theorem Tried.insert_cases {node : Node} {x : Except StoreError NodeId}
    (tried : Tried c (.insertNode node) x c') :
    (∃ id, c.node? id = none ∧ (∀ key, node.key? = some key → c.keyed key = ∅) ∧
      x = .ok id ∧
      c' = c.insert id node) ∨
    (∃ key, node.key? = some key ∧ (c.keyed key).Nonempty ∧
      x = .error (.uniqueViolation key.canonical) ∧ c' = c) ∨
    ∃ row, x = .error (.idOverflow row) ∧ c.Exhausted ∧ c' = c := by
  rcases tried with (taken | ⟨free, id, fresh, rfl, rfl⟩) | ⟨_, ⟨row, rfl⟩, full, rfl⟩
  · exact Or.inr (Or.inl taken)
  · exact Or.inl ⟨id, fresh, free, rfl, rfl⟩
  · exact Or.inr (Or.inr ⟨row, rfl, full, rfl⟩)

theorem Tried.inserted {node : Node} {x : Except StoreError NodeId}
    (tried : Tried c (.insertNode node) x c') :
    (∃ id, c.node? id = none ∧ (∀ key, node.key? = some key → c.keyed key = ∅) ∧
      x = .ok id ∧
      c' = c.insert id node) ∨ ∃ error, x = .error error ∧ c' = c := by
  rcases tried.insert_cases with inserted | ⟨key, _, _, rfl, rfl⟩ | ⟨row, rfl, _, rfl⟩
  · exact Or.inl inserted
  · exact Or.inr ⟨_, rfl, rfl⟩
  · exact Or.inr ⟨_, rfl, rfl⟩

theorem Tried.linked {e : Edge} {x : Except StoreError Bool}
    (tried : Tried c (.insertEdge e) x c') :
    c.linked e = (x, c') := by
  rcases tried with stepped | ⟨inserts, _⟩
  · exact Option.some.inj stepped
  · cases inserts

theorem Tried.change (tried : Tried c q r c') : c.Change q c' := by
  rcases tried with stepped | ⟨_, _, _, rfl⟩
  · cases q with
    | insertNode node =>
        rcases Tried.inserted (Or.inl stepped) with ⟨id, fresh, free, _, rfl⟩ | ⟨_, _, rfl⟩
        · exact .node fresh free
        · exact .none _
    | loadGraph =>
        obtain ⟨_, rfl⟩ := stepped
        exact .none _
    | insertEdge e =>
        obtain rfl : (c.linked e).2 = c' := congrArg Prod.snd (Tried.linked (Or.inl stepped))
        exact linked_change e
    | markNodes ids =>
        obtain rfl : (c.marking ids).2 = c' := congrArg Prod.snd (Option.some.inj stepped)
        exact marking_change ids
    | clearMarks =>
        cases stepped
        exact .unmark
    | removeKind kind =>
        cases stepped
        exact .removal kind
    | reset =>
        cases stepped
        exact .reset
    | _ =>
        cases stepped
        exact .none _
  · exact .none _

theorem Change.valid (change : c.Change q c') (valid : c.Valid) : c'.Valid := by
  cases change with
  | none => exact valid
  | node fresh free => exact valid.insert fresh free
  | edge hs ht permitted => exact valid.link hs ht permitted
  | mark existing => exact valid.mark existing
  | unmark => exact valid.unmarked
  | removal kind => exact valid.without kind
  | reset => exact empty_valid

theorem Change.of_reads (change : c.Change q c') (reads : q.reads = true) : c' = c := by
  cases change with
  | none => rfl
  | _ => cases reads

theorem Change.extendedBy (change : c.Change q c') (adds : q.removes = false) :
    c.ExtendedBy c' := by
  cases change with
  | none => exact .refl c
  | node fresh free => exact ⟨insert_node?_of_some fresh, subset_rfl⟩
  | edge => exact ⟨id, fun _ => Or.inr⟩
  | mark => exact ⟨id, subset_rfl⟩
  | unmark => exact ⟨id, subset_rfl⟩
  | removal kind => cases adds
  | reset => cases adds

theorem Change.untouched {kind : NodeKind} {relation : Relation} (change : c.Change q c')
    (frame : q.touches kind relation = false) :
    (∀ id node, node.kind = kind → (c'.node? id = some node ↔ c.node? id = some node)) ∧
      ∀ s t, ⟨s, relation, t⟩ ∈ c'.edges ↔ ⟨s, relation, t⟩ ∈ c.edges := by
  cases change with
  | none => exact ⟨fun _ _ _ => Iff.rfl, fun _ _ => Iff.rfl⟩
  | @node id new fresh free =>
      refine ⟨fun other node own => ?_, fun _ _ => Iff.rfl⟩
      by_cases same : other = id
      · rw [same, insert_node?_self, fresh]
        refine iff_of_false (fun found => ?_) nofun
        rw [Option.some.inj found] at frame
        exact beq_eq_false_iff_ne.mp frame own
      · rw [insert_node?_of_ne _ same]
  | @edge e source target hs ht permitted =>
      refine ⟨fun _ _ _ => Iff.rfl, fun s t => ⟨?_, Or.inr⟩⟩
      rintro (same | mem)
      · exact absurd (congrArg Edge.relation same).symm (beq_eq_false_iff_ne.mp frame)
      · exact mem
  | mark => exact ⟨fun _ _ _ => Iff.rfl, fun _ _ => Iff.rfl⟩
  | unmark => exact ⟨fun _ _ _ => Iff.rfl, fun _ _ => Iff.rfl⟩
  | removal => cases frame
  | reset => cases frame

theorem Change.ofKind_eq {kind : NodeKind} {relation : Relation} (change : c.Change q c')
    (frame : q.touches kind relation = false) : c'.ofKind kind = c.ofKind kind :=
  Set.ext fun id => exists_congr fun node =>
    and_congr_left fun own => (change.untouched frame).1 id node own

theorem Change.targets_eq {kind : NodeKind} {relation : Relation} (change : c.Change q c')
    (frame : q.touches kind relation = false) (id : NodeId) :
    c'.targets id relation = c.targets id relation :=
  Set.ext fun t => (change.untouched frame).2 id t

theorem Determined.unique_of_tried {r' : Except StoreError q.Reply} {c'' : Contents}
    (determined : Determined c q r c') (tried : Tried c q r' c'') : r' = r ∧ c'' = c' := by
  rcases tried with stepped | ⟨inserts, _⟩
  · exact determined.unique stepped
  · cases q with
    | insertNode node => cases determined
    | _ => cases inserts

end Contents

theorem Leads.unique_of_tried {α : Type} {p : Program α} {x y : α} {c c' m : Contents}
    (leads : Leads p c x m) (runs : p.Runs Contents.Tried c y c') : y = x ∧ c' = m :=
  Program.Runs.unique (fun _ _ _ _ _ _ => Contents.Determined.unique_of_tried) leads runs

theorem Contents.Valid.tried_mergeNode {c c' : Contents} (valid : c.Valid) {node : Node}
    {key : NodeKey} (keyed : node.key? = some key) {x : Except StoreError (NodeId × Bool)}
    (ran : (StoreProgram.mergeNode node).run.Runs Contents.Tried c x c') :
    (∃ id ∈ c.keyed key, x = .ok (id, false) ∧ c' = c) ∨
    (∃ id, c.node? id = none ∧ c.keyed key = ∅ ∧ x = .ok (id, true) ∧
      c' = c.insert id node) ∨
    ∃ error, x = .error error ∧ c' = c := by
  rw [StoreProgram.mergeNode, keyed] at ran
  obtain ⟨found, m, look, rest⟩ := runs_exceptT_bind.mp ran
  obtain ⟨rfl, rfl⟩ := (Reads.findNode key).unique_of_tried look
  cases known : m.find? key with
  | some id =>
      rw [known] at rest
      obtain ⟨rfl, rfl⟩ := rest
      exact Or.inl ⟨id, valid.find?_eq_some.mp known, rfl, rfl⟩
  | none =>
      rw [known] at rest
      obtain ⟨inserted, m₁, inserting, resumed⟩ := (Program.runs_bind (p := ExceptT.run (do
        let id ← StoreProgram.call (.insertNode node)
        return (id, true)))).mp rest
      obtain ⟨answer, m₂, insertion, inner⟩ := runs_exceptT_bind.mp inserting
      rcases (runs_storeCall.mp insertion).inserted with
        ⟨id, fresh, free, rfl, rfl⟩ | ⟨error, rfl, rfl⟩
      · obtain ⟨rfl, rfl⟩ := inner
        obtain ⟨rfl, rfl⟩ := resumed
        exact Or.inr (Or.inl ⟨id, fresh, free key keyed, rfl, rfl⟩)
      · obtain ⟨rfl, rfl⟩ := inner
        refine Or.inr (Or.inr ⟨error, ?_⟩)
        dsimp only at resumed
        by_cases violation : error.isUniqueViolation = true
        · rw [if_pos violation] at resumed
          obtain ⟨again, m₃, look', last⟩ := runs_exceptT_bind.mp resumed
          obtain ⟨rfl, rfl⟩ := (Reads.findNode key).unique_of_tried look'
          rw [known] at last
          exact last
        · rw [if_neg violation] at resumed
          exact resumed

namespace Database

theorem exhausted_of_full {es : Entries} {ls : List Edge} (ascending : es.Ascending)
    (full : NodeId.count ≤ es.nextNumber) : (es.contents ls).Exhausted := by
  obtain rfl | ⟨rest, last, rfl⟩ := List.eq_nil_or_concat' es
  · exact absurd full (by decide)
  · rw [Tables.nextNumber_concat] at full
    have greatest : last.1.toNat = NodeId.count - 1 := by
      have := last.1.toNat_lt
      omega
    have found := (Entries.lookup_eq_some ascending).mpr
        (List.mem_append_right rest List.mem_cons_self)
    rw [Contents.Exhausted, ← greatest, NodeId.ofNat_toNat]
    exact ⟨last.2.node, congrArg (Option.map NodeRecord.node) found⟩

theorem insertNode_exhausted {es : Entries} {ls : List Edge} (savepoints : List Tables)
    (node : Node) (full : NodeId.count ≤ es.nextNumber)
    (free : ¬ (Tables.written es ls).keyTaken (node.key?.map NodeKey.canonical) = true) :
    ∃ row, call (.insertNode node) ⟨Tables.written es ls, savepoints⟩ =
      (.error (.idOverflow row), ⟨Tables.written es ls, savepoints⟩) := by
  have none : NodeId.ofInt? (es.nextNumber : Int) = none := by
    rw [NodeId.ofInt?, if_neg (by omega)]
  refine ⟨es.nextNumber, ?_⟩
  rw [call, Tables.insertNode, if_neg free, Tables.nextNumber_written, none]
  rfl

theorem answers_tried (q : Call) {db : Database} (sound : view.sound db) :
    Contents.Tried (view.holds db) q (store.call q db).1 (view.holds (store.call q db).2) ∧
      view.sound (store.call q db).2 := by
  by_cases room : q.inserts → view.level db < NodeId.count
  · obtain ⟨stepped, sound', _⟩ := faithful.answers q sound room
    exact ⟨Or.inl stepped, sound'⟩
  · obtain ⟨inserts, full⟩ := Classical.not_imp.mp room
    cases q with
    | insertNode node =>
        obtain ⟨tables, savepoints⟩ := db
        obtain ⟨es, ls, rfl, ascending, ordered, valid⟩ := Tables.Valid.exists_written sound
        have level : view.level ⟨Tables.written es ls, savepoints⟩ = es.nextNumber :=
          congrArg Entries.nextNumber Tables.entries_written
        have holds : view.holds ⟨Tables.written es ls, savepoints⟩ = es.contents ls :=
          Tables.contents_written
        rw [level, not_lt] at full
        by_cases taken : (Tables.written es ls).keyTaken (node.key?.map NodeKey.canonical) = true
        · obtain ⟨key, own, held⟩ := (Tables.keyTaken_written ascending node).mp taken
          have answer := insertNode_taken savepoints ascending own held
          refine ⟨Or.inl (Or.inl ⟨key, own, ?_, congrArg Prod.fst answer, ?_⟩), ?_⟩
          · rwa [holds]
          · exact congrArg view.holds (congrArg Prod.snd answer)
          · exact (congrArg view.sound (congrArg Prod.snd answer)).mpr sound
        · obtain ⟨row, answer⟩ := insertNode_exhausted savepoints node full taken
          refine ⟨Or.inr ⟨rfl, ⟨row, congrArg Prod.fst answer⟩, ?_, ?_⟩, ?_⟩
          · exact holds ▸ exhausted_of_full ascending full
          · exact congrArg view.holds (congrArg Prod.snd answer)
          · exact (congrArg view.sound (congrArg Prod.snd answer)).mpr sound
    | _ => cases inserts

end Database

namespace Store.Faithful

variable {σ α : Type} {store : Store σ} {view : View σ}

/-- A program runs as its calls do, whatever room there is. -/
theorem runs_of_answers (faithful : store.Faithful view) {step : Steps Contents}
    (answers : ∀ (q : Call) {s : σ}, view.sound s →
      step (view.holds s) q (store.call q s).1 (view.holds (store.call q s).2) ∧
        view.sound (store.call q s).2)
    (p : Program α) {s : σ} (sound : view.sound s) :
    p.Runs step (view.holds s) (p.run store s).1 (view.holds (p.run store s).2) ∧
      view.sound (p.run store s).2 := by
  induction p generalizing s with
  | done value => exact ⟨⟨rfl, rfl⟩, sound⟩
  | call q next ih =>
      obtain ⟨stepped, sound₁⟩ := answers q sound
      obtain ⟨runs, sound'⟩ := ih _ sound₁
      exact ⟨⟨_, _, stepped, runs⟩, sound'⟩
  | atomically body next ihBody ih =>
      obtain ⟨s₁, begun, holds₁, sound₁, _⟩ := faithful.begins sound
      obtain ⟨runsBody, soundBody⟩ := ihBody sound₁
      obtain ⟨s', done, holds', sound', -, -⟩ := faithful.transaction body sound begun soundBody
      obtain ⟨runs, soundNext⟩ := ih _ sound'
      rw [Program.run, done]
      rw [holds₁] at runsBody
      rw [holds'] at runs
      exact ⟨⟨_, _, runsBody, runs⟩, soundNext⟩

end Store.Faithful

namespace Medium

/-- A program asks for no node that the store cannot hold. Memory holds a node for each identifier;
the database refuses further ones. -/
def Suffices {α : Type} : (medium : Medium) → Program α → medium.State → Prop
  | memory, p, s => p.Room Memory.store Memory.view.level s
  | database, _, _ => True

theorem runs_tried (medium : Medium) {α : Type} (p : Program α) {s : medium.State}
    (sound : medium.view.sound s) (enough : medium.Suffices p s) :
    p.Runs Contents.Tried (medium.view.holds s) (p.run medium.store s).1
        (medium.view.holds (p.run medium.store s).2) ∧
      medium.view.sound (p.run medium.store s).2 := by
  cases medium with
  | memory =>
      obtain ⟨runs, sound'⟩ := Memory.faithful.run p sound enough
      exact ⟨runs.mono fun _ _ _ _ => Or.inl, sound'⟩
  | database => exact Database.faithful.runs_of_answers Database.answers_tried p sound

end Medium

end BlastRadius
