import BlastRadius.Proofs.Graph.Valid
import BlastRadius.Proofs.Store.Runs
import BlastRadius.Store.Basic

/-!
What a store that holds some contents answers to a call, and what it holds afterwards. The contents
determine both, but for the identifier of a new node and the way in which a loaded graph keeps its
contents.
-/

namespace BlastRadius.Contents

variable (c : Contents)

/-- The answer to a question about a node that should exist. -/
def about {α : Type} (id : NodeId) (answer : Node → α) : Except StoreError α :=
  match c.node? id with
  | some node => .ok (answer node)
  | none => .error (.nodeNotFound id)

/-- The answer to the insertion of an edge. -/
noncomputable def linked (e : Edge) : Outcome Contents Bool :=
  match c.node? e.source, c.node? e.target with
  | some source, some target =>
      if e.relation.permits source.kind target.kind then (.ok (c.lacks e), c.link e)
      else (.error (.rule (.invalidRelation e.relation source.kind target.kind)), c)
  | some _, none => (.error (.nodeNotFound e.target), c)
  | none, _ => (.error (.nodeNotFound e.source), c)

/-- The answer to the marking of nodes. -/
noncomputable def marking (ids : List NodeId) : Outcome Contents Nat :=
  match ids.find? fun id => (c.node? id).isNone with
  | some missing => (.error (.nodeNotFound missing), c)
  | none => (.ok ({id | id ∈ ids} \ c.marked).ncard, c.mark {id | id ∈ ids})

/-- The answer to a call and the contents after it, where the contents determine them. -/
noncomputable def answer? : (q : Call) → Option (Outcome Contents q.Reply)
  | .insertNode _ | .loadGraph => none
  | .getNode id => some (c.about id fun node => node, c)
  | .nodeKind id => some (c.about id Node.kind, c)
  | .findNode key => some (.ok (c.find? key), c)
  | .nodesOfKind kind => some (.ok (NodeId.listed (c.ofKind kind)), c)
  | .insertEdge e => some (c.linked e)
  | .targets id relation =>
      some (c.about id fun _ => NodeId.listed (c.targets id relation), c)
  | .sources id relation =>
      some (c.about id fun _ => NodeId.listed (c.sources id relation), c)
  | .isMarked id => some (c.about id fun _ => c.isMarked id, c)
  | .markedNodes kind => some (.ok (NodeId.listed (c.marked ∩ c.ofKind kind)), c)
  | .markNodes ids => some (c.marking ids)
  | .clearMarks => some (.ok c.marked.ncard, c.unmarked)
  | .removeKind kind => some (.ok (c.ofKind kind).ncard, c.without kind)
  | .reset => some (.ok (), empty)

/-- The calls that the contents determine. -/
def Determined : Steps Contents := fun c q r c' => c.answer? q = some (r, c')

/-- What a store may answer, and what it may hold afterwards. A new node takes any identifier that
is not in use, unless its key is taken. -/
def Step : (q : Call) → Except StoreError q.Reply → Contents → Prop
  | .insertNode node, r, c' =>
      (∃ key, node.key? = some key ∧ (c.keyed key).Nonempty ∧
        r = .error (.uniqueViolation key.canonical) ∧ c' = c) ∨
      ((∀ key, node.key? = some key → c.keyed key = ∅) ∧
        ∃ id, c.node? id = none ∧ r = .ok id ∧ c' = c.insert id node)
  | .loadGraph, r, c' => (∃ g : DependencyGraph, r = .ok g ∧ g.Valid ∧ g.contents = c) ∧
      c' = c
  | q, r, c' => c.answer? q = some (r, c')

variable {c}

theorem Determined.unique {q : Call} {r r' : Except StoreError q.Reply} {c' c'' : Contents}
    (determined : Determined c q r c') (stepped : c.Step q r' c'') : r' = r ∧ c'' = c' := by
  have same : c.answer? q = some (r', c'') := by
    cases q <;> first | exact stepped | cases determined
  have pair : (r, c') = (r', c'') := Option.some.inj (determined.symm.trans same)
  exact ⟨(congrArg Prod.fst pair).symm, (congrArg Prod.snd pair).symm⟩

theorem about_of_node? {α : Type} {id : NodeId} {node : Node} (found : c.node? id = some node)
    (answer : Node → α) : c.about id answer = .ok (answer node) := by
  rw [about, found]

theorem linked_of_permits {e : Edge} {source target : Node} (hs : c.node? e.source = some source)
    (ht : c.node? e.target = some target) (permitted : e.relation.permits source.kind target.kind) :
    c.linked e = (.ok (c.lacks e), c.link e) := by
  simp only [linked, hs, ht, if_pos permitted]

theorem marking_of_live {ids : List NodeId} (existing : ∀ id ∈ ids, id ∈ c.live) :
    c.marking ids = (.ok ({id | id ∈ ids} \ c.marked).ncard, c.mark {id | id ∈ ids}) := by
  have none : ids.find? (fun id => (c.node? id).isNone) = none := by
    rw [List.find?_eq_none]
    intro id mem
    obtain ⟨node, found⟩ := existing id mem
    simp [found]
  rw [marking, none]

end BlastRadius.Contents
