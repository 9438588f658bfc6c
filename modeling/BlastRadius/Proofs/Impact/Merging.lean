import BlastRadius.Proofs.Impact.Climbing
import BlastRadius.Proofs.Impact.Interleavings

/-!
Merges of nodes with one key on a shared store. Another client may insert the node between the
look-up and the insertion of a merge. The insertion is then refused and the key is looked up again,
and as long as nothing is removed the node is found.
-/

namespace BlastRadius

open Contents

namespace StoreProgram

/-- What is left of a merge after the second look-up. -/
def recovered (error : StoreError) :
    Except StoreError (Option NodeId) → Program (Except StoreError (NodeId × Bool))
  | .ok (some id) => .done (.ok (id, false))
  | .ok none => .done (.error error)
  | .error again => .done (.error again)

/-- What is left of a merge after the insertion. -/
def inserted (key : NodeKey) :
    Except StoreError NodeId → Program (Except StoreError (NodeId × Bool))
  | .ok id => .done (.ok (id, true))
  | .error error =>
      if error.isUniqueViolation then .call (.findNode key) (recovered error)
      else .done (.error error)

/-- What is left of a merge after the first look-up. -/
def looked (key : NodeKey) (node : Node) :
    Except StoreError (Option NodeId) → Program (Except StoreError (NodeId × Bool))
  | .ok (some id) => .done (.ok (id, false))
  | .ok none => .call (.insertNode node) (inserted key)
  | .error error => .done (.error error)

theorem mergeNode_run {node : Node} {key : NodeKey} (keyed : node.key? = some key) :
    (mergeNode node).run = .call (.findNode key) (looked key node) := by
  rw [mergeNode, keyed]
  refine congrArg (Program.call (.findNode key)) (funext fun found => ?_)
  rcases found with error | _ | id
  · rfl
  · refine congrArg (Program.call (.insertNode node)) (funext fun added => ?_)
    rcases added with error | id
    · change (ite (error.isUniqueViolation = true) (_ : StoreProgram _) (_ : StoreProgram _)).run =
        ite (error.isUniqueViolation = true) _ _
      by_cases unique : error.isUniqueViolation = true
      · rw [if_pos unique, if_pos unique]
        refine congrArg (Program.call (.findNode key)) (funext fun again => ?_)
        rcases again with other | _ | id <;> rfl
      · rw [if_neg unique, if_neg unique]
        rfl
    · rfl
  · rfl

end StoreProgram

open StoreProgram (looked inserted recovered)

namespace Contents

variable {c c' : Contents} {key : NodeKey}

theorem ExtendedBy.keyed (extended : c.ExtendedBy c') (key : NodeKey) :
    c.keyed key ⊆ c'.keyed key :=
  fun _ ⟨node, found, own⟩ => ⟨node, extended.nodes found, own⟩

theorem ExtendedBy.live (extended : c.ExtendedBy c') : c.live ⊆ c'.live :=
  fun _ ⟨node, found⟩ => ⟨node, extended.nodes found⟩

theorem Tried.found {r : Except StoreError (Option NodeId)} (tried : Tried c (.findNode key) r c') :
    r = .ok (c.find? key) ∧ c' = c := by
  have determined : Determined c (.findNode key) (.ok (c.find? key)) c := rfl
  exact determined.unique_of_tried tried

/-- The key belongs to no further nodes. -/
def KeyStays (key : NodeKey) (c c' : Contents) : Prop := c'.keyed key ⊆ c.keyed key

theorem Change.keyStays {q : Call} (change : c.Change q c')
    (other : ∀ node, q = .insertNode node → node.key? ≠ some key) : KeyStays key c c' := by
  intro id own
  cases change with
  | @node new node fresh free =>
      exact ((mem_keyed_insert fresh).mp own).resolve_right fun ⟨_, same⟩ => other node rfl same
  | removal kind =>
      obtain ⟨node, found, same⟩ := own
      exact ⟨node, (without_node?_eq_some.mp found).1, same⟩
  | reset =>
      obtain ⟨node, found, _⟩ := own
      cases found
  | _ => exact own

end Contents

/-- How far a merge has come, how many turns it has left, and what is known of the contents. -/
inductive Merging (key : NodeKey) (node : Node) (c : Contents) :
    Nat → Program (Except StoreError (NodeId × Bool)) → Prop where
  | looking : Merging key node c 3 (.call (.findNode key) (looked key node))
  | inserting : Merging key node c 2 (.call (.insertNode node) (inserted key))
  | recovering (error : StoreError) (taken : (c.keyed key).Nonempty) :
      Merging key node c 1 (.call (.findNode key) (recovered error))
  | merged {id : NodeId} (isNew : Bool) (own : id ∈ c.keyed key) :
      Merging key node c 0 (.done (.ok (id, isNew)))
  | exhausted (row : Int) (full : c.Exhausted) :
      Merging key node c 0 (.done (.error (.idOverflow row)))

/-- What a step of a merge does: it takes the merge further and nothing from the contents. If it
gives the key to a node, it ends the merge with a new node, and only then. -/
structure Advances (key : NodeKey) (node : Node) (c c' : Contents) (n : Nat)
    (left : Program (Except StoreError (NodeId × Bool))) : Prop where
  merging : ∃ m < n, Merging key node c' m left
  extended : c.ExtendedBy c'
  inserts : c'.keyed key ⊆ c.keyed key ∨ ∃ id, left = .done (.ok (id, true))
  creates : ∀ id, left = .done (.ok (id, true)) → c.keyed key = ∅

namespace Merging

variable {c c' : Contents} {key : NodeKey} {node : Node} {n : Nat}
  {p : Program (Except StoreError (NodeId × Bool))}

/-- What others add does not set a merge back. -/
theorem grown (merging : Merging key node c n p) (extended : c.ExtendedBy c') :
    Merging key node c' n p := by
  cases merging with
  | looking => exact .looking
  | inserting => exact .inserting
  | recovering error taken => exact .recovering error (taken.mono (extended.keyed key))
  | merged isNew own => exact .merged isNew (extended.keyed key own)
  | exhausted row full => exact .exhausted row (extended.live full)

theorem answered {x : Except StoreError (NodeId × Bool)}
    (merging : Merging key node c n (.done x)) :
    (∃ id isNew, x = .ok (id, isNew) ∧ id ∈ c.keyed key) ∨
      ∃ row, x = .error (.idOverflow row) ∧ c.Exhausted := by
  cases merging with
  | merged isNew own => exact Or.inl ⟨_, isNew, rfl, own⟩
  | exhausted row full => exact Or.inr ⟨row, rfl, full⟩

theorem finished (merging : Merging key node c 0 p) : ∃ x, p = .done x := by
  cases merging with
  | merged isNew own => exact ⟨_, rfl⟩
  | exhausted row full => exact ⟨_, rfl⟩

theorem ended {x : Except StoreError (NodeId × Bool)} (merging : Merging key node c n (.done x)) :
    n = 0 := by
  cases merging <;> rfl

theorem looks (valid : c.Valid) {r : Except StoreError (Option NodeId)}
    (tried : Tried c (.findNode key) r c') : Advances key node c c' 3 (looked key node r) := by
  obtain ⟨rfl, rfl⟩ := tried.found
  cases known : c'.find? key with
  | some id =>
      have own := valid.find?_eq_some.mp known
      exact ⟨⟨0, by omega, .merged false own⟩, .refl _, Or.inl subset_rfl, nofun⟩
  | none => exact ⟨⟨2, by omega, .inserting⟩, .refl _, Or.inl subset_rfl, nofun⟩

theorem inserts (keyed : node.key? = some key) {r : Except StoreError NodeId}
    (tried : Tried c (.insertNode node) r c') : Advances key node c c' 2 (inserted key r) := by
  have extended := tried.change.extendedBy rfl
  rcases tried.insert_cases with
    ⟨id, fresh, free, rfl, rfl⟩ | ⟨own, same, taken, rfl, rfl⟩ | ⟨row, rfl, full, rfl⟩
  · have own : id ∈ (c.insert id node).keyed key := ⟨node, insert_node?_self id node, keyed⟩
    exact ⟨⟨0, by omega, .merged true own⟩, extended, Or.inr ⟨id, rfl⟩, fun _ _ =>
      free key keyed⟩
  · obtain rfl : key = own := Option.some.inj (keyed.symm.trans same)
    exact ⟨⟨1, by omega, .recovering _ taken⟩, extended, Or.inl subset_rfl, nofun⟩
  · exact ⟨⟨0, by omega, .exhausted row full⟩, extended, Or.inl subset_rfl, nofun⟩

theorem recovers (valid : c.Valid) (taken : (c.keyed key).Nonempty) (error : StoreError)
    {r : Except StoreError (Option NodeId)} (tried : Tried c (.findNode key) r c') :
    Advances key node c c' 1 (recovered error r) := by
  obtain ⟨rfl, rfl⟩ := tried.found
  obtain ⟨id, own⟩ := taken
  rw [valid.find?_eq_some.mpr own]
  exact ⟨⟨0, by omega, .merged false own⟩, .refl _, Or.inl subset_rfl, nofun⟩

theorem advance {medium : Medium} {s : medium.State} (keyed : node.key? = some key)
    (sound : medium.view.sound s) (merging : Merging key node (medium.view.holds s) n p)
    (enough : medium.Suffices p.head s) :
    (∃ x, p = .done x) ∨
      Advances key node (medium.view.holds s) (medium.view.holds (p.advance medium.store s).2) n
        (p.advance medium.store s).1 := by
  have valid := medium.valid_of_sound sound
  cases merging with
  | looking => exact Or.inr (looks valid (Medium.call_tried sound enough))
  | inserting => exact Or.inr (inserts keyed (Medium.call_tried sound enough))
  | recovering error taken =>
      exact Or.inr (recovers valid taken error (Medium.call_tried sound enough))
  | merged isNew own => exact Or.inl ⟨_, rfl⟩
  | exhausted row full => exact Or.inl ⟨_, rfl⟩

end Merging

/-- A call that removes nothing. -/
def Call.Adds (q : Call) : Prop := q.removes = false

/-- A call that gives a key to no node. -/
def Call.Spares (key : NodeKey) (q : Call) : Prop :=
  ∀ node, q = .insertNode node → node.key? ≠ some key

theorem allows_adding : AllowsOperations Call.Adds fun _ body => body.Only Call.Adds := by
  have block {α : Type} {body : StoreProgram α}
      (each : EachStep Call.Adds (fun _ body => body.Only Call.Adds) body) :
      body.run.Only Call.Adds :=
    Program.only_iff_each.mpr each
  have call {q : Call} (adds : q.Adds) :
      EachStep Call.Adds (fun _ body => body.Only Call.Adds) (StoreProgram.call q) :=
    .call adds
  have reads {q : Call} (reads : q.reads = true) := call (q := q) (by cases q <;> trivial)
  exact
    { call := fun {q} marks => by cases q <;> trivial
      node := fun _ => rfl
      edge := fun _ => rfl
      seeding := fun _ => block (EachStep.composes.seeding (call rfl) fun _ => call rfl)
      providing := fun _ _ => block (EachStep.composes.providing reads (fun _ => call rfl)
        (fun _ => call rfl) fun _ _ => call rfl)
      linking := fun _ _ _ _ => block (EachStep.composes.linking reads (call rfl)
        (fun _ => call rfl) fun _ _ => call rfl)
      exposing := fun _ _ => block (EachStep.composes.exposing reads (call rfl) fun _ => call rfl)
      recording := fun _ => block (EachStep.composes.recording reads (call rfl) fun _ _ => call rfl)
      registering := fun _ _ => block (EachStep.composes.registering reads (fun _ => call rfl)
        (call rfl) fun _ _ => call rfl) }

theorem Operation.inTurn_adds {operations : List Operation}
    (nothing : ∀ operation ∈ operations, operation.removed = []) :
    (inTurn operations).Only Call.Adds := by
  refine Program.only_iff_each.mpr (inTurn_each fun operation mem => ?_)
  have none := nothing operation mem
  refine allows_adding.perform operation (none ▸ trivial) fun reset => ?_
  cases reset ▸ none

/-- What the clients answer with: those that merge, and the others. -/
@[reducible]
def Merger (κ ω : Type) : κ ⊕ ω → Type
  | .inl _ => Except StoreError (NodeId × Bool)
  | .inr _ => Unit

namespace Medium

variable {medium : Medium} {κ ω : Type} {key : NodeKey} {nodes : κ → Node}
  {others : ω → Program Unit} {s : medium.State}

/-- Clients of which some merge a node and the others do something else. -/
def merging (medium : Medium) {κ ω : Type} (nodes : κ → Node) (others : ω → Program Unit)
    (s : medium.State) : Clients medium.State (Merger κ ω) where
  program
    | .inl k => (StoreProgram.mergeNode (nodes k)).run
    | .inr o => others o
  state := s

/-- The clients whose merge has ended with a new node. -/
def creators (now : Clients medium.State (Merger κ ω)) : Set κ :=
  {k | ∃ id, now.program (.inl k) = .done (.ok (id, true))}

variable [DecidableEq κ] [DecidableEq ω]

/-- What holds after some turns of such clients, when the calls of the others are as `P` says. -/
structure Contending (key : NodeKey) (nodes : κ → Node) (P : Call → Prop) (first : Contents)
    (early : List (κ ⊕ ω)) (now : Clients medium.State (Merger κ ω)) : Prop where
  grown : first.ExtendedBy (medium.view.holds now.state)
  stages : ∀ k, ∃ n ≤ 3 - early.countP (· = .inl k),
    Merging key (nodes k) (medium.view.holds now.state) n (now.program (.inl k))
  others : ∀ o, (now.program (.inr o)).Only P
  new : (creators now).Nonempty → first.keyed key = ∅
  single : (creators now).Subsingleton
  source : (∀ q, P q → q.Spares key) → ((medium.view.holds now.state).keyed key).Nonempty →
    (first.keyed key).Nonempty ∨ (creators now).Nonempty

namespace Contending

variable {P : Call → Prop} {first : Contents} {early : List (κ ⊕ ω)}
  {now : Clients medium.State (Merger κ ω)} {k : κ}

theorem start (keyed : ∀ k, (nodes k).key? = some key) (only : ∀ o, (others o).Only P) :
    Contending key nodes P (medium.view.holds s) [] (medium.merging nodes others s) := by
  have looking (k : κ) : (medium.merging nodes others s).program (.inl k) =
      .call (.findNode key) (looked key (nodes k)) :=
    StoreProgram.mergeNode_run (keyed k)
  have none (k : κ) : k ∉ creators (medium.merging nodes others s) := fun ⟨_, ended⟩ =>
    nomatch (looking k).symm.trans ended
  exact
    { grown := .refl _
      stages := fun k => ⟨3, le_rfl, looking k ▸ .looking⟩
      others := only
      new := fun ⟨k, ended⟩ => absurd ended (none k)
      single := fun k ended => absurd ended (none k)
      source := fun _ => Or.inl }

theorem creators_turn (i : κ ⊕ ω) : creators now ⊆ creators (now.turn medium.store i) :=
  fun _ ⟨id, ended⟩ => ⟨id, now.turn_done medium.store ended i⟩

theorem idle (held : Contending key nodes P first early now)
    {x : Except StoreError (NodeId × Bool)}
    (ended : now.program (.inl k) = .done x) :
    Contending key nodes P first (early ++ [.inl k]) (now.turn medium.store (.inl k)) := by
  rw [now.turn_ended medium.store ended]
  refine { held with stages := fun k' => ?_ }
  obtain ⟨n, le, merging⟩ := held.stages k'
  by_cases same : k' = k
  · subst same
    exact ⟨n, (ended ▸ merging).ended ▸ Nat.zero_le _, merging⟩
  · exact ⟨n, by simpa [Ne.symm same] using le, merging⟩

/-- A step of a merge gives the key to no further node, or its client is the only one
whose node is new. -/
theorem creates (held : Contending key nodes P first early now) {n : Nat}
    (advances : Advances key (nodes k) (medium.view.holds now.state)
      (medium.view.holds (now.turn medium.store (.inl k)).state) n
      ((now.turn medium.store (.inl k)).program (.inl k))) :
    creators (now.turn medium.store (.inl k)) = creators now ∧
        (medium.view.holds (now.turn medium.store (.inl k)).state).keyed key ⊆
          (medium.view.holds now.state).keyed key ∨
      creators (now.turn medium.store (.inl k)) = {k} ∧
        (medium.view.holds now.state).keyed key = ∅ := by
  have others {k' : κ} (ended : k' ∈ creators (now.turn medium.store (.inl k))) :
      k' = k ∨ k' ∈ creators now := by
    refine (eq_or_ne k' k).imp_right fun other => ?_
    rwa [creators, Set.mem_ofPred_eq, now.turn_of_ne medium.store
      (Sum.inl_injective.ne other)] at ended
  by_cases new : k ∈ creators (now.turn medium.store (.inl k))
  · obtain ⟨id, ended⟩ := new
    have none := advances.creates id ended
    refine Or.inr ⟨Set.eq_singleton_iff_unique_mem.mpr
      ⟨⟨id, ended⟩, fun k' new' => ?_⟩, none⟩
    refine (others new').resolve_right fun ⟨id', ended'⟩ => ?_
    obtain ⟨n', -, merging⟩ := held.stages k'
    rcases (ended' ▸ merging).answered with ⟨found, _, -, own⟩ | ⟨_, failed, -⟩
    · exact Set.notMem_empty found (none ▸ own)
    · cases failed
  · refine Or.inl ⟨(creators_turn _).antisymm' fun k' new' => ?_, ?_⟩
    · exact (others new').resolve_left fun same => new (same ▸ new')
    · exact advances.inserts.resolve_right new

theorem merger_turn (keyed : ∀ k, (nodes k).key? = some key)
    (sound : medium.view.sound now.state) (held : Contending key nodes P first early now)
    (enough : medium.Suffices (now.program (.inl k)).head now.state) :
    Contending key nodes P first (early ++ [.inl k]) (now.turn medium.store (.inl k)) := by
  obtain ⟨n, le, merging⟩ := held.stages k
  rcases merging.advance (keyed k) sound enough with ⟨x, ended⟩ | advances
  · exact held.idle ended
  rw [← now.turn_self medium.store (.inl k)] at advances
  have created := held.creates advances
  refine
    { grown := held.grown.trans advances.extended
      stages := fun k' => ?_
      others := fun o => ?_
      new := fun some => ?_
      single := ?_
      source := fun spares taken => ?_ }
  · by_cases same : k' = k
    · subst same
      obtain ⟨m, less, further⟩ := advances.merging
      refine ⟨m, ?_, further⟩
      rw [List.countP_append, List.countP_singleton, if_pos (decide_eq_true rfl)]
      omega
    · obtain ⟨n', le', merging'⟩ := held.stages k'
      rw [now.turn_of_ne medium.store (Sum.inl_injective.ne same)]
      exact ⟨n', by simpa [Ne.symm same] using le', merging'.grown advances.extended⟩
  · rw [now.turn_of_ne medium.store Sum.inr_ne_inl]
    exact held.others o
  · rcases created with ⟨same, -⟩ | ⟨-, none⟩
    · exact held.new (same ▸ some)
    · exact Set.subset_empty_iff.mp (none ▸ held.grown.keyed key)
  · rcases created with ⟨same, -⟩ | ⟨alone, -⟩
    · exact same ▸ held.single
    · exact alone ▸ Set.subsingleton_singleton
  · rcases created with ⟨same, fewer⟩ | ⟨alone, -⟩
    · exact same ▸ held.source spares (taken.mono fewer)
    · exact Or.inr (alone ▸ Set.singleton_nonempty k)

theorem other_turn (adds : ∀ q, P q → q.Adds) {o : ω}
    (sound : medium.view.sound now.state) (held : Contending key nodes P first early now)
    (enough : medium.Suffices (now.program (.inr o)).head now.state) :
    Contending key nodes P first (early ++ [.inr o]) (now.turn medium.store (.inr o)) := by
  have left (k : κ) : (now.turn medium.store (.inr o)).program (.inl k) = now.program (.inl k) :=
    now.turn_of_ne medium.store Sum.inl_ne_inr
  have same : creators (now.turn medium.store (.inr o)) = creators now :=
    Set.ext fun k => by rw [creators, Set.mem_ofPred_eq, left]; rfl
  have grown : (medium.view.holds now.state).ExtendedBy
      (medium.view.holds (now.turn medium.store (.inr o)).state) := by
    have keeps : (now.program (.inr o)).Keeps Tried ExtendedBy :=
      (held.others o).keeps .refl .trans fun only _ _ _ tried =>
        tried.change.extendedBy (adds _ only)
    exact (keeps_advance .refl keeps sound enough).1
  refine
    { grown := held.grown.trans grown
      stages := fun k => ?_
      others := fun o' => ?_
      new := same ▸ held.new
      single := same ▸ held.single
      source := fun spares taken => same ▸ held.source spares (taken.mono ?_) }
  · obtain ⟨n, le, merging⟩ := held.stages k
    exact ⟨n, by simpa using le, left k ▸ merging.grown grown⟩
  · exact Program.only_iff_each.mpr
      (now.each_run medium.store (Program.only_iff_each.mp (held.others o')) [.inr o])
  · have refl (c : Contents) : KeyStays key c c := subset_rfl
    have keeps : (now.program (.inr o)).Keeps Tried (KeyStays key) :=
      (held.others o).keeps refl (fun first second => Set.Subset.trans second first)
        fun only _ _ _ tried => tried.change.keyStays (spares _ only)
    exact (keeps_advance refl keeps sound enough).1

/-- The clients take turns in any order. -/
theorem run (keyed : ∀ k, (nodes k).key? = some key) (only : ∀ o, (others o).Only P)
    (adds : ∀ q, P q → q.Adds) {turns : List (κ ⊕ ω)} (sound : medium.view.sound s)
    (serves : medium.Serves (medium.merging nodes others s) turns) :
    Contending key nodes P (medium.view.holds s) turns
        ((medium.merging nodes others s).run medium.store turns) ∧
      medium.view.sound ((medium.merging nodes others s).run medium.store turns).state := by
  refine turns_invariant (start keyed only) (fun early now i sound' held enough => ?_) sound serves
  cases i with
  | inl k => exact held.merger_turn keyed sound' enough
  | inr o => exact held.other_turn adds sound' enough

end Contending

/-- Clients that merge nodes with one key, in any order of their steps with each other and
with those of others that remove nothing, have all ended after three turns each, with the
same node, unless identifiers have run out. At most one of them has inserted it, and none if
it was there at first. If it was not and the others do not insert it either, it is exactly
one of those that merge. -/
theorem merges_agree (medium : Medium) {key : NodeKey} {nodes : κ → Node}
    {others : ω → Program Unit}
    {s : medium.State} {turns : List (κ ⊕ ω)} (keyed : ∀ k, (nodes k).key? = some key)
    (adding : ∀ o, (others o).Only Call.Adds) (sound : medium.view.sound s)
    (serves : medium.Serves (medium.merging nodes others s) turns) :
    let now := (medium.merging nodes others s).run medium.store turns
    let held := medium.view.holds now.state
    (∃ id, ∀ k x, now.program (.inl k) = .done x →
      (∃ isNew, x = .ok (id, isNew)) ∧ held.keyed key = {id} ∨
        ∃ row, x = .error (.idOverflow row) ∧ held.Exhausted) ∧
    (∀ k, 3 ≤ turns.countP (· = .inl k) → ∃ x, now.program (.inl k) = .done x) ∧
    (creators now).Subsingleton ∧
    (((medium.view.holds s).keyed key).Nonempty → creators now = ∅) ∧
    ((medium.view.holds s).keyed key = ∅ → (∀ o, (others o).Only (Call.Spares key)) →
      (∃ k x, now.program (.inl k) = .done (.ok x)) → ∃ k, creators now = {k}) := by
  intro now held
  obtain ⟨contending, sound'⟩ := Contending.run keyed adding (fun _ => id) sound serves
  have unique := (medium.valid_of_sound sound').key_unique key
  have answered {k : κ} {x : Except StoreError (NodeId × Bool)}
      (ended : now.program (.inl k) = .done x) :
      (∃ id isNew, x = .ok (id, isNew) ∧ id ∈ held.keyed key) ∨
        ∃ row, x = .error (.idOverflow row) ∧ held.Exhausted := by
    obtain ⟨n, -, merging⟩ := contending.stages k
    exact (ended ▸ merging).answered
  refine ⟨?_, fun k enough => ?_, contending.single, fun taken =>
    ?_, fun none spares ended => ?_⟩
  · rcases unique.eq_empty_or_singleton with none | ⟨id, alone⟩
    · refine ⟨⟨0⟩, fun k x ended => Or.inr ((answered ended).resolve_left ?_)⟩
      exact fun ⟨id, _, _, own⟩ => Set.notMem_empty id (none ▸ own)
    · refine ⟨id, fun k x ended => (answered ended).imp_left ?_⟩
      rintro ⟨id', isNew, rfl, own⟩
      obtain rfl : id' = id := (Set.ext_iff.mp alone id').mp own
      exact ⟨⟨isNew, rfl⟩, alone⟩
  · obtain ⟨n, le, merging⟩ := contending.stages k
    obtain rfl : n = 0 := by omega
    exact merging.finished
  · exact Set.not_nonempty_iff_eq_empty.mp fun some => taken.ne_empty (contending.new some)
  · obtain ⟨k, x, ended⟩ := ended
    rcases answered ended with ⟨id, -, -, own⟩ | ⟨_, failed, -⟩
    · have sparing := (Contending.run keyed (fun o => (adding o).and (spares o))
        (fun _ => And.left) sound serves).1
      have new := (sparing.source (fun _ => And.right) ⟨id, own⟩).resolve_left
        (none ▸ Set.not_nonempty_empty)
      exact Set.exists_eq_singleton_iff_nonempty_subsingleton.mpr ⟨new, contending.single⟩
    · cases failed

/-- Two clients look up the same component before either inserts it, and a third
inserts a symbol. -/
theorem merges_agree_after_refusal :
    let nodes : Fin 2 → Node := fun _ => .component ⟨"web", "1.0"⟩
    let others : Fin 1 → Program Unit := fun _ => Operation.inTurn [.upsertSymbol "parse"]
    let turns : List (Fin 2 ⊕ Fin 1) := [.inl 0, .inl 1, .inr 0, .inl 1, .inl 0, .inr 0, .inl 0]
    let first := Medium.database.merging nodes others Medium.database.initial
    let now := first.run Medium.database.store turns
    let key : NodeKey := .component ⟨"web", "1.0"⟩
    (∀ k, (nodes k).key? = some key) ∧ (∀ o, (others o).Only Call.Adds) ∧
    (∀ o, (others o).Only (Call.Spares key)) ∧
      Medium.database.view.sound Medium.database.initial ∧
    Medium.database.Serves first turns ∧
    (Medium.database.view.holds Medium.database.initial).keyed key = ∅ ∧
    now.program (.inl 0) = .done (.ok (⟨1⟩, false)) ∧
    (Medium.database.view.holds now.state).keyed key = {⟨1⟩} ∧ creators now = {1} := by
  intro nodes others turns first now key
  have keyed : ∀ k, (nodes k).key? = some key := fun _ => rfl
  have adding : ∀ o, (others o).Only Call.Adds := fun _ =>
    Operation.inTurn_adds fun operation mem => by rw [List.mem_singleton.mp mem]; rfl
  have spares : ∀ o, (others o).Only (Call.Spares key) := fun _ => by
    refine Program.only_iff_each.mpr (Operation.inTurn_each fun operation mem => ?_)
    obtain rfl := List.mem_singleton.mp mem
    refine EachStep.map _ (.bind (.require _ _) fun _ => EachStep.ofStore ?_)
    refine (EachStep.mergeNode (fun _ => .call ?_) (.call ?_)).bind fun _ => .pure _
    · intro node same
      cases same
    · intro node same
      cases same
      simp [Node.key?, key]
  have serves : Medium.database.Serves first turns := fun _ _ _ => trivial
  have none : (Medium.database.view.holds Medium.database.initial).keyed key = ∅ := by
    rw [Medium.database.initial_holds]
    refine Set.eq_empty_iff_forall_notMem.mpr ?_
    rintro id ⟨node, found, -⟩
    cases found
  have recovered : now.program (.inl 0) = .done (.ok (⟨1⟩, false)) :=
    Program.answer?_eq_some.mp (Program.answer?_eq_ok (by decide +kernel))
  have inserted : now.program (.inl 1) = .done (.ok (⟨1⟩, true)) :=
    Program.answer?_eq_some.mp (Program.answer?_eq_ok (by decide +kernel))
  obtain ⟨⟨id, agree⟩, -, -, -, one⟩ :=
    merges_agree .database keyed adding Medium.database.initial_sound serves
  obtain ⟨k, created⟩ := one none spares ⟨0, _, recovered⟩
  obtain rfl : 1 = k := (Set.ext_iff.mp created 1).mp ⟨⟨1⟩, inserted⟩
  refine ⟨keyed, adding, spares, Medium.database.initial_sound, serves, none, recovered,
    ?_, created⟩
  rcases agree 0 _ recovered with ⟨⟨_, same⟩, alone⟩ | ⟨_, failed, -⟩
  · cases same
    simpa only [now, first] using alone
  · cases failed

/-- A single client, without others, merges a node for which there is no identifier. -/
theorem merges_agree_exhausted :
    let nodes : Fin 1 → Node := fun _ => .asset ⟨"disk", "1"⟩
    let others : Fin 0 → Program Unit := nofun
    let turns : List (Fin 1 ⊕ Fin 0) := [.inl 0, .inl 0]
    let s := Medium.database.reached Operation.exhausting
    let first := Medium.database.merging nodes others s
    Medium.database.view.sound s ∧ Medium.database.Serves first turns ∧
    (first.run Medium.database.store turns).program (.inl 0) =
      .done (.error (.idOverflow NodeId.count)) := by
  refine ⟨reached_sound fun _ _ _ => trivial, fun _ _ _ => trivial, ?_⟩
  rw [reached_exhausting]
  rfl

end Medium

end BlastRadius
