import BlastRadius.Proofs.Store.Medium
import BlastRadius.Proofs.Store.Transient

/-!
The two stores have no transient failures of their own: with nothing in their way they fail only for
what they are asked and what they hold.
-/

namespace BlastRadius

variable {α β : Type}

theorem transient_bind {x : Except StoreError α} {f : α → Except StoreError β}
    (first : transient x = false) (second : ∀ value, transient (f value) = false) :
    transient (x >>= f) = false := by
  rcases x with error | value
  · exact first
  · exact second value

theorem transient_mapM {f : α → Except StoreError β} {l : List α}
    (each : ∀ a, transient (f a) = false) : transient (l.mapM f) = false := by
  induction l with
  | nil => rfl
  | cons a rest ih =>
      rw [List.mapM_cons]
      apply transient_bind (each a)
      intro b
      exact transient_bind ih fun _ => rfl

theorem transient_ofGraph (x : Except GraphError α) :
    transient (x.mapError StoreError.ofGraph) = false := by
  rcases x with error | value
  · cases error <;> rfl
  · rfl

theorem Memory.calm : Memory.store.Calm where
  control request memory := by
    obtain ⟨graph, _ | ⟨saved, snapshots⟩⟩ := memory
    all_goals cases request <;> rfl
  call q memory := by
    have changed {α : Type} (result : Except GraphError (α × DependencyGraph)) :
        transient (memory.change result).1 = false := by
      rcases result with error | ⟨value, graph⟩
      · cases error <;> rfl
      · rfl
    cases q <;> first | exact transient_ofGraph _ | exact changed _ | rfl

namespace Tables

variable (tables : Tables)

theorem transient_row (id : NodeId) : transient (tables.row id) = false := by
  rw [row]
  split <;> rfl

theorem transient_identifier (number : Int) : transient (identifier number) = false := by
  rw [identifier]
  split <;> rfl

theorem transient_idsWhere (p : NodeRow → Bool) : transient (tables.idsWhere p) = false :=
  transient_mapM fun row => transient_identifier row.id

theorem transient_kindOf (id : NodeId) : transient (tables.kindOf id) = false :=
  transient_bind (tables.transient_row id) fun _ => transient_ofGraph _

theorem transient_nodeOf (row : NodeRow) : transient (nodeOf row) = false := by
  rw [nodeOf]
  cases Node.ofText row.json <;> rfl

theorem transient_findNode (key : NodeKey) : transient (tables.findNode key) = false := by
  rw [findNode]
  split
  · exact transient_bind (transient_identifier _) fun _ => rfl
  · rfl

theorem transient_insertNode (node : Node) : transient (tables.insertNode node) = false := by
  simp only [insertNode]
  split
  · rfl
  · split <;> rfl

theorem transient_insertEdge (edge : Edge) : transient (tables.insertEdge edge) = false := by
  apply transient_bind (tables.transient_kindOf edge.source)
  intro source
  apply transient_bind (tables.transient_kindOf edge.target)
  intro target
  apply transient_bind (transient_ofGraph _)
  intro _
  dsimp only
  split <;> rfl

theorem transient_markNodes (ids : List NodeId) : transient (tables.markNodes ids) = false := by
  rw [markNodes]
  split <;> rfl

theorem transient_graph : transient tables.graph = false := by
  apply transient_bind
  · apply transient_mapM
    intro row
    exact transient_bind (transient_identifier row.id) fun _ =>
      transient_bind (transient_nodeOf row) fun _ => rfl
  · intro records
    apply transient_bind
    · apply transient_mapM
      intro row
      exact transient_bind (transient_ofGraph _) fun _ => rfl
    · intro edges
      exact transient_ofGraph _

end Tables

theorem Database.calm : Database.store.Calm where
  control request db := by
    obtain ⟨tables, _ | ⟨saved, savepoints⟩⟩ := db
    all_goals cases request <;> rfl
  call q db := by
    have changed {α : Type} {result : Except StoreError (α × Tables)}
        (calm : transient result = false) : transient (db.change result).1 = false := by
      rcases result with error | ⟨value, tables⟩
      · exact calm
      · rfl
    have row (id : NodeId) := db.tables.transient_row id
    cases q with
    | insertNode node => exact changed (db.tables.transient_insertNode node)
    | getNode id => exact transient_bind (row id) fun found => Tables.transient_nodeOf found
    | nodeKind id => exact db.tables.transient_kindOf id
    | findNode key => exact db.tables.transient_findNode key
    | nodesOfKind kind => exact db.tables.transient_idsWhere _
    | insertEdge edge => exact changed (db.tables.transient_insertEdge edge)
    | targets id relation => exact transient_bind (row id) fun _ => rfl
    | sources id relation => exact transient_bind (row id) fun _ => rfl
    | isMarked id => exact transient_bind (row id) fun _ => rfl
    | markedNodes kind => exact db.tables.transient_idsWhere _
    | markNodes ids => exact changed (db.tables.transient_markNodes ids)
    | clearMarks => rfl
    | loadGraph => exact db.tables.transient_graph
    | removeKind kind => rfl
    | reset => rfl

theorem Medium.calm (medium : Medium) : medium.store.Calm := by
  cases medium with
  | memory => exact Memory.calm
  | database => exact Database.calm

variable {σ : Type}

/-- What is done behind a store that tries again, with so many levels open in front. -/
def Retrying.around (depth : Nat) (o : α × σ) : α × Retrying σ := (o.1, ⟨o.2, depth⟩)

section Calm

variable {inner : Store σ} (calm : inner.Calm) (policy : RetryPolicy)
include calm

theorem Retrying.call_calm (q : Call) (t : Retrying σ) :
    Retrying.call policy inner q t = around t.depth (inner.call q t.inner) := by
  rw [Retrying.call]
  split
  · have first := policy.attempt_final (calm.call q t.inner) policy.maxRetries 0
    obtain ⟨answer, state⟩ := Prod.ext_iff.mp first
    exact Prod.ext answer (congrArg (Retrying.mk · t.depth) state)
  · rfl

theorem Program.Relays.run_calm {fails : α → Bool} {p : Program α} (relays : p.Relays fails)
    (t : Retrying σ) :
    p.run (Retrying.store policy inner) t = Retrying.around t.depth (p.run inner t.inner) ∧
      fails (p.run inner t.inner).1 = false := by
  induction p generalizing t with
  | done value => exact ⟨rfl, relays⟩
  | call q next ih =>
      have single : (Retrying.store policy inner).call q t = _ := Retrying.call_calm calm policy q t
      rw [Program.run, Program.run, single]
      exact ih _ (relays.2 _ (calm.call q t.inner)) ⟨_, t.depth⟩
  | atomically body next _ _ => exact relays.elim

theorem Program.Relays.transaction_calm {body : Program (Except StoreError β)}
    (relays : body.Relays transient) (t : Retrying σ) :
    Store.transaction (Retrying.control inner) (body.run (Retrying.store policy inner)) t =
        Retrying.around t.depth (Store.transaction inner.control (body.run inner) t.inner) ∧
      transient (Store.transaction inner.control (body.run inner) t.inner).1 = false := by
  have begins := calm.control .begin t.inner
  rw [Store.transaction, Store.transaction]
  rcases begun : inner.control .begin t.inner with ⟨error | ⟨⟩, s₁⟩
  · simp only [Retrying.control, begun]
    rw [begun] at begins
    exact ⟨rfl, begins⟩
  · obtain ⟨same, final⟩ := relays.run_calm calm policy ⟨s₁, t.depth + 1⟩
    simp only [Retrying.control, begun, same]
    rcases ran : body.run inner s₁ with ⟨error | value, s₂⟩
    · rw [ran] at final
      exact ⟨rfl, final⟩
    · have commits := calm.control .commit s₂
      simp only [Retrying.around]
      rcases committed : inner.control .commit s₂ with ⟨error | ⟨⟩, s₃⟩
      · rw [committed] at commits
        exact ⟨rfl, commits⟩
      · exact ⟨rfl, rfl⟩

/-- On a store without transient failures a program does as if it were not tried again, if its
blocks have none of their own. -/
theorem Program.run_calm
    (once : ∀ {β : Type} (body : σ → Outcome σ β) (s : σ),
      inner.atomically body s = Store.transaction inner.control body s)
    {p : Program α} (relays : p.Each (fun _ => True) fun _ body => body.Relays transient)
    (t : Retrying σ) :
    p.run (Retrying.store policy inner) t = Retrying.around t.depth (p.run inner t.inner) := by
  induction p generalizing t with
  | done value => rfl
  | call q next ih =>
      have single : (Retrying.store policy inner).call q t = _ := Retrying.call_calm calm policy q t
      rw [Program.run, Program.run, single]
      exact ih _ (relays.2 _) ⟨_, t.depth⟩
  | atomically body next _ ih =>
      have block : (Retrying.store policy inner).atomically
          (body.run (Retrying.store policy inner)) t =
          Retrying.around t.depth (inner.atomically (body.run inner) t.inner) := by
        obtain ⟨same, final⟩ := relays.1.transaction_calm calm policy t
        change Retrying.atomically policy inner _ t = _
        rw [once, Retrying.atomically]
        split
        · rw [← same]
          exact policy.attempt_final (by rw [same]; exact final) policy.maxRetries 0
        · exact same
      rw [Program.run, Program.run, block]
      exact ih _ (relays.2 _) ⟨_, t.depth⟩

end Calm

end BlastRadius
