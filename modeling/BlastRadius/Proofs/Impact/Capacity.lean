import BlastRadius.Proofs.Graph.Coherence
import BlastRadius.Proofs.Impact.Merging
import BlastRadius.Proofs.Store.Ensuring

/-!
How many more nodes a store can take. While nothing is removed this depends on how many nodes there
are and not on how they came to be there, so that a program that makes no more nodes than another
one made from the same state has an identifier for each of them.
-/

namespace BlastRadius

theorem Contents.ncard_live_insert {c : Contents} {id : NodeId} (fresh : c.node? id = none)
    (node : Node) : (c.insert id node).live.ncard = c.live.ncard + 1 := by
  rw [live_insert]
  exact Set.ncard_insert_of_notMem (not_mem_live.mpr fresh)

theorem Tables.nextNumber_congr {es es' : Entries} (same : es'.map Prod.fst = es.map Prod.fst) :
    es'.nextNumber = es.nextNumber := by
  have numbers (es : Entries) : es.nextNumber =
      ((es.map Prod.fst).getLast?.map fun id => id.toNat + 1).getD 1 := by
    rw [Entries.nextNumber, List.getLast?_map, Option.map_map]
    rfl
  rw [numbers, numbers, same]

namespace Medium

variable {medium : Medium} {s t u : medium.State} {q : Call}

/-- How many nodes can be made before the level rises. -/
def reserve : (medium : Medium) → medium.State → Nat
  | memory, (s : Memory) => s.graph.free.length
  | database, _ => 0

/-- The level when there are so many nodes. -/
noncomputable def levelAt (medium : Medium) (s : medium.State) (nodes : Nat) : Nat :=
  medium.view.level s + (nodes - medium.size s - medium.reserve s)

theorem levelAt_size (s : medium.State) :
    medium.levelAt s (medium.size s) = medium.view.level s := by
  rw [levelAt, Nat.sub_self, Nat.zero_sub, Nat.add_zero]

/-- Nodes were added, each while there was an identifier for it. -/
structure Climbs (medium : Medium) (s t : medium.State) : Prop where
  more : medium.size s ≤ medium.size t
  level : ∀ n, medium.size t ≤ n → medium.levelAt t n = medium.levelAt s n
  room : ∀ n, medium.size s ≤ n → n < medium.size t → medium.levelAt s n < NodeId.count

namespace Climbs

theorem of_same (size : medium.size t = medium.size s)
    (level : medium.view.level t = medium.view.level s)
    (reserve : medium.reserve t = medium.reserve s) : medium.Climbs s t where
  more := size.ge
  level n _ := by rw [levelAt, levelAt, size, level, reserve]
  room n above below := absurd (size ▸ below) (not_lt.mpr above)

theorem refl (s : medium.State) : medium.Climbs s s := .of_same rfl rfl rfl

theorem trans (first : medium.Climbs s t) (second : medium.Climbs t u) : medium.Climbs s u where
  more := first.more.trans second.more
  level n above := (second.level n above).trans (first.level n (second.more.trans above))
  room n above below := by
    by_cases between : n < medium.size t
    · exact first.room n above between
    · rw [← first.level n (not_lt.mp between)]
      exact second.room n (not_lt.mp between) below

theorem of_next (size : medium.size t = medium.size s + 1)
    (room : medium.view.level s < NodeId.count)
    (level : medium.view.level t = medium.view.level s + (1 - medium.reserve s))
    (reserve : medium.reserve t = medium.reserve s - 1) : medium.Climbs s t where
  more := size ▸ Nat.le_succ _
  level n above := by
    rw [levelAt, levelAt]
    omega
  room n above below := by
    rw [show n = medium.size s by omega, levelAt_size]
    exact room

end Climbs

end Medium

theorem Contents.Change.live_eq {c c' : Contents} {q : Call} (change : c.Change q c')
    (adds : q.Adds)
    (asks : q.inserts = false) : c'.live = c.live := by
  cases change with
  | none => rfl
  | node => cases asks
  | edge => rfl
  | mark => rfl
  | unmark => rfl
  | removal => cases adds
  | reset => cases adds

namespace Memory

variable {memory : Memory} {q : Call}

theorem call_graph (adds : q.Adds) (asks : q.inserts = false) :
    (call q memory).2.graph.next = memory.graph.next ∧
      (call q memory).2.graph.free = memory.graph.free := by
  have changed {α : Type} {result : Except GraphError (α × DependencyGraph)}
      (same : ∀ value g, result = .ok (value, g) → g.next = memory.graph.next ∧
        g.free = memory.graph.free) :
      (memory.change result).2.graph.next = memory.graph.next ∧
        (memory.change result).2.graph.free = memory.graph.free := by
    rcases result with error | ⟨value, g⟩
    · exact ⟨rfl, rfl⟩
    · exact same value g rfl
  cases q with
  | insertNode => cases asks
  | removeKind => cases adds
  | reset => cases adds
  | insertEdge e =>
      refine changed fun _ _ added => ?_
      obtain ⟨_, edges, rfl⟩ := DependencyGraph.addEdge_ok added
      exact ⟨rfl, rfl⟩
  | markNodes ids =>
      refine changed fun _ _ marked => ?_
      rw [DependencyGraph.setMarks] at marked
      split at marked <;> cases marked
      exact ⟨rfl, rfl⟩
  | _ => exact ⟨rfl, rfl⟩

theorem climbs_insertNode (valid : memory.graph.Valid) (room : memory.graph.next < NodeId.count)
    (node : Node) : Medium.memory.Climbs memory (call (.insertNode node) memory).2 := by
  have hasRoom : memory.graph.HasRoom := fun _ => room
  rcases DependencyGraph.addNode_cases valid hasRoom node with ⟨_, _, _, _, refused⟩ |
    ⟨_, g, added, _, holds⟩
  · have same : (call (.insertNode node) memory).2 = memory := by
      rw [call, refused]
      rfl
    rw [same]
    exact .refl _
  · have done : (call (.insertNode node) memory).2 = { memory with graph := g } := by
      rw [call, added]
      rfl
    obtain ⟨-, -, -, -, free, next⟩ := DependencyGraph.addNode_ok added
    rw [done]
    refine Medium.Climbs.of_next ?_ room ?_ ?_
    · change g.contents.live.ncard = _
      rw [holds]
      exact Contents.ncard_live_insert (DependencyGraph.nextId_fresh valid hasRoom) node
    · change g.next = memory.graph.next + (1 - memory.graph.free.length)
      rw [next]
      cases memory.graph.free <;> simp
    · change g.free.length = memory.graph.free.length - 1
      rw [free, List.length_tail]

end Memory

namespace Database

variable {db : Database} {q : Call}

theorem call_number (adds : q.Adds) (asks : q.inserts = false) (sound : view.sound db) :
    view.level (call q db).2 = view.level db := by
  obtain ⟨tables, savepoints⟩ := db
  obtain ⟨es, ls, rfl, ascending, ordered, valid⟩ := Tables.Valid.exists_written sound
  have changed {α : Type} {value : α} {es' : Entries} {ls' : List Edge}
      {result : Except StoreError (α × Tables)}
      (done : result = .ok (value, Tables.written es' ls'))
      (same : es'.map Prod.fst = es.map Prod.fst) :
      view.level (change ⟨Tables.written es ls, savepoints⟩ result).2 =
        view.level ⟨Tables.written es ls, savepoints⟩ := by
    subst done
    change (Tables.written es' ls').entries.nextNumber = (Tables.written es ls).entries.nextNumber
    rw [Tables.entries_written, Tables.entries_written, Tables.nextNumber_congr same]
  have refused {α : Type} {error : StoreError} {result : Except StoreError (α × Tables)}
      (done : result = .error error) :
      view.level (change ⟨Tables.written es ls, savepoints⟩ result).2 =
        view.level ⟨Tables.written es ls, savepoints⟩ := by
    rw [done]
    rfl
  cases q with
  | insertNode => cases asks
  | removeKind => cases adds
  | reset => cases adds
  | insertEdge e =>
      rcases Tables.insertEdge_written ascending ordered valid e with
        ⟨_, failed, _⟩ | ⟨_, _, added, _⟩
      · exact refused failed
      · exact changed added rfl
  | markNodes ids =>
      rcases Tables.markNodes_written ascending ordered valid ids with
        ⟨_, failed, _⟩ | ⟨_, marked, _⟩
      · exact refused failed
      · exact changed marked (by simp [Function.comp_def, Entries.markListed_fst])
  | clearMarks =>
      exact changed (congrArg Except.ok (Tables.clearMarks_written ascending))
        (by simp [Function.comp_def, Entries.unmark])
  | _ => rfl

theorem climbs_insertNode (sound : view.sound db) (node : Node) :
    Medium.database.Climbs db (call (.insertNode node) db).2 := by
  obtain ⟨tables, savepoints⟩ := db
  obtain ⟨es, ls, rfl, ascending, ordered, valid⟩ := Tables.Valid.exists_written sound
  have stays {error : StoreError}
      (failed : call (.insertNode node) ⟨Tables.written es ls, savepoints⟩ =
      (.error error, ⟨Tables.written es ls, savepoints⟩)) : Medium.database.Climbs
        ⟨Tables.written es ls, savepoints⟩
        (call (.insertNode node) ⟨Tables.written es ls, savepoints⟩).2 := by
    rw [failed]
    exact .refl _
  by_cases taken : (Tables.written es ls).keyTaken (node.key?.map NodeKey.canonical) = true
  · obtain ⟨key, own, held⟩ := (Tables.keyTaken_written ascending node).mp taken
    exact stays (insertNode_taken savepoints ascending own held)
  · by_cases room : es.nextNumber < NodeId.count
    · have unkeyed (key : NodeKey) (own : node.key? = some key) :
          (es.contents ls).keyed key = ∅ := by
        refine Set.not_nonempty_iff_eq_empty.mp fun held => taken ?_
        exact (Tables.keyTaken_written ascending node).mpr ⟨key, own, held⟩
      obtain ⟨id, es', written, fresh, _, holds, number⟩ :=
        Tables.insertNode_written ascending ordered valid room unkeyed
      have done : (call (.insertNode node) ⟨Tables.written es ls, savepoints⟩).2 =
          ⟨Tables.written es' ls, savepoints⟩ := by
        rw [call, written]
        rfl
      rw [done]
      refine Medium.Climbs.of_next ?_ ?_ ?_ rfl
      · change (Tables.written es' ls).contents.live.ncard =
          (Tables.written es ls).contents.live.ncard + 1
        rw [Tables.contents_written, Tables.contents_written, holds]
        exact Contents.ncard_live_insert fresh node
      · change (Tables.written es ls).entries.nextNumber < _
        rwa [Tables.entries_written]
      · change (Tables.written es' ls).entries.nextNumber =
            (Tables.written es ls).entries.nextNumber + 1
        rw [Tables.entries_written, Tables.entries_written, number]
    · obtain ⟨_, failed⟩ := insertNode_exhausted savepoints node (not_lt.mp room) taken
      exact stays failed

end Database

theorem Program.Room.bind {σ α β : Type} {store : Store σ} {level : σ → Nat} {p : Program α}
    {f : α → Program β} {s : σ} (room : (p >>= f).Room store level s) :
    p.Room store level s ∧ (f (p.run store s).1).Room store level (p.run store s).2 := by
  change (p.bind f).Room store level s at room
  induction p generalizing s with
  | done value => exact ⟨trivial, room⟩
  | call q next ih =>
      obtain ⟨first, later⟩ := ih _ room.2
      exact ⟨⟨room.1, first⟩, later⟩
  | atomically body next _ ih =>
      obtain ⟨first, later⟩ := ih _ room.2
      exact ⟨⟨room.1, first⟩, later⟩

namespace Medium

variable {medium : Medium} {s t : medium.State} {ε α β : Type}

theorem suffices_call {q : Call} {next : Except StoreError q.Reply → Program α}
    (enough : medium.Suffices (.call q next) s) :
    medium.Suffices (.call q fun _ => .done ()) s ∧
      medium.Suffices (next (medium.store.call q s).1) (medium.store.call q s).2 := by
  cases medium with
  | memory => exact ⟨⟨enough.1, trivial⟩, enough.2⟩
  | database => exact ⟨trivial, trivial⟩

theorem suffices_atomically {body : Program (Except StoreError β)}
    {next : Except StoreError β → Program α}
    (enough : medium.Suffices (.atomically body next) s) :
    medium.Suffices body (medium.store.control .begin s).2 ∧
      medium.Suffices (next (medium.store.atomically (fun t => body.run medium.store t) s).1)
        (medium.store.atomically (fun t => body.run medium.store t) s).2 := by
  cases medium with
  | memory => exact enough
  | database => exact ⟨trivial, trivial⟩

theorem suffices_bind {p : Program α} {f : α → Program β}
    (enough : medium.Suffices (p >>= f) s) :
    medium.Suffices p s ∧
      medium.Suffices (f (p.run medium.store s).1) (p.run medium.store s).2 := by
  cases medium with
  | memory => exact Program.Room.bind enough
  | database => exact ⟨trivial, trivial⟩

theorem suffices_exceptT_bind {p : ExceptT ε Program α} {f : α → ExceptT ε Program β}
    (enough : medium.Suffices (p >>= f).run s) : medium.Suffices p.run s ∧
      medium.Suffices (andThen f (p.run.run medium.store s).1) (p.run.run medium.store s).2 := by
  rw [ExceptT.run_bind] at enough
  obtain ⟨first, later⟩ := suffices_bind enough
  refine ⟨first, ?_⟩
  cases ran : (p.run.run medium.store s).1 <;> rw [ran] at later <;> exact later

theorem suffices_of_room {p : Program α} (room : p.Room medium.store medium.view.level s) :
    medium.Suffices p s := by
  cases medium with
  | memory => exact room
  | database => trivial

theorem climbs_call {q : Call} (adds : q.Adds) (sound : medium.view.sound s)
    (enough : medium.Suffices (.call q fun _ => .done ()) s) :
    medium.Climbs s (medium.store.call q s).2 := by
  by_cases asks : q.inserts = true
  · cases q with
    | insertNode node =>
        cases medium with
        | memory => exact Memory.climbs_insertNode sound (enough.1 rfl) node
        | database => exact Database.climbs_insertNode sound node
    | _ => cases asks
  · have asks := Bool.eq_false_iff.mpr asks
    have size := congrArg Set.ncard ((call_tried sound enough).change.live_eq adds asks)
    cases medium with
    | memory =>
        obtain ⟨next, free⟩ := Memory.call_graph adds asks
        exact .of_same size next (congrArg List.length free)
    | database => exact .of_same size (Database.call_number adds asks sound) rfl

theorem climbs_control {request : Control} (answer : medium.store.control request s = (.ok (), t))
    (other : request ≠ .rollback) : medium.Climbs s t := by
  cases medium with
  | memory =>
      obtain ⟨graph, snapshots⟩ := s
      cases request with
      | begin =>
          cases answer
          exact .of_same rfl rfl rfl
      | commit =>
          cases snapshots <;> cases answer
          exact .of_same rfl rfl rfl
      | rollback => exact absurd rfl other
  | database =>
      obtain ⟨tables, savepoints⟩ := s
      cases request with
      | begin =>
          cases answer
          exact .of_same rfl rfl rfl
      | commit =>
          cases savepoints <;> cases answer
          exact .of_same rfl rfl rfl
      | rollback => exact absurd rfl other

theorem climbs_atomically {body : Program (Except StoreError β)} (sound : medium.view.sound s)
    (inner : ∀ t, medium.store.control .begin s = (.ok (), t) → medium.view.sound t →
      medium.Climbs t (body.run medium.store t).2) :
    medium.Climbs s (medium.store.atomically (fun t => body.run medium.store t) s).2 := by
  have faithful := medium.faithful
  obtain ⟨s₁, begun, _, sound₁, _⟩ := faithful.begins sound
  rw [faithful.once]
  rcases faithful.transaction_cases (faithful.run_opened faithful.once body) s with
    ⟨_, failed⟩ |
    ⟨value, t₁, t₂, t₃, begun', ran, committed, _, done⟩
  · rw [failed]
    exact .refl s
  · obtain rfl : s₁ = t₁ := congrArg Prod.snd (begun.symm.trans begun')
    rw [done]
    have made := inner s₁ begun sound₁
    rw [ran] at made
    exact ((climbs_control begun nofun).trans made).trans (climbs_control committed nofun)

/-- A program that removes nothing adds nodes while there are identifiers for them. -/
theorem climbs_run {p : Program α} (only : p.Only Call.Adds) (sound : medium.view.sound s)
    (enough : medium.Suffices p s) : medium.Climbs s (p.run medium.store s).2 := by
  induction p generalizing s with
  | done value => exact .refl s
  | call q next ih =>
      obtain ⟨here, later⟩ := suffices_call enough
      have sound' := (medium.runs_tried _ sound here).2
      exact (climbs_call only.1 sound here).trans (ih _ (only.2 _) sound' later)
  | atomically body next ihBody ih =>
      obtain ⟨here, later⟩ := suffices_atomically enough
      obtain ⟨s₁, begun, _, sound₁, _⟩ := medium.faithful.begins sound
      rw [begun] at here
      obtain ⟨s', done, _, sound', _⟩ :=
        medium.faithful.transaction body sound begun (medium.runs_tried body sound₁ here).2
      have inner (t : medium.State) (begun' : medium.store.control .begin s = (.ok (), t))
          (_ : medium.view.sound t) : medium.Climbs t (body.run medium.store t).2 := by
        obtain rfl : s₁ = t := congrArg Prod.snd (begun.symm.trans begun')
        exact ihBody only.1 sound₁ here
      -- Whether the block was kept or undone, no more nodes were added than its body added.
      have made := climbs_atomically sound inner
      rw [Program.run]
      rw [done] at made later ⊢
      exact made.trans (ih _ (only.2 _) sound' later)

/-- A program that asks for nodes only below a bound on their number has room for them, if there are
identifiers up to that bound. -/
theorem room_of_ensures {p : Program α} {bound : Nat} {Q : α → Contents → Prop}
    (only : p.Only Call.Adds) (sound : medium.view.sound s)
    (ensures : p.Ensures (.upTo bound) (medium.view.holds s) Q)
    (enough : ∀ n, medium.size s ≤ n → n < bound → medium.levelAt s n < NodeId.count) :
    p.Room medium.store medium.view.level s := by
  have further {u v : medium.State} (climbs : medium.Climbs u v)
      (enough : ∀ n, medium.size u ≤ n → n < bound → medium.levelAt u n < NodeId.count) :
      ∀ n, medium.size v ≤ n → n < bound → medium.levelAt v n < NodeId.count := by
    intro n above below
    rw [climbs.level n above]
    exact enough n (climbs.more.trans above) below
  induction p generalizing s with
  | done value => trivial
  | call q next ih =>
      have room (asks : q.inserts = true) : medium.view.level s < NodeId.count := by
        rw [← levelAt_size]
        exact enough _ le_rfl (ensures.1 asks)
      obtain ⟨step, sound', _⟩ := medium.faithful.answers q sound room
      refine ⟨room, ih _ (only.2 _) sound' (ensures.2 _ _ (Or.inl step)) (further ?_ enough)⟩
      exact climbs_call only.1 sound (suffices_of_room ⟨room, trivial⟩)
  | atomically body next ihBody ih =>
      obtain ⟨s₁, begun, holds₁, sound₁, _⟩ := medium.faithful.begins sound
      have climbs₁ := climbs_control begun nofun
      rw [Program.Ensures, ← holds₁] at ensures
      have roomBody := ihBody only.1 sound₁ ensures (further climbs₁ enough)
      obtain ⟨ran, soundBody⟩ := medium.faithful.run body sound₁ roomBody
      obtain ⟨s', done, holds', sound', -, -⟩ :=
        medium.faithful.transaction body sound begun soundBody
      have inner (t : medium.State) (begun' : medium.store.control .begin s = (.ok (), t))
          (_ : medium.view.sound t) : medium.Climbs t (body.run medium.store t).2 := by
        obtain rfl : s₁ = t := congrArg Prod.snd (begun.symm.trans begun')
        exact climbs_run only.1 sound₁ (suffices_of_room roomBody)
      have made := climbs_atomically sound inner
      have rest := ensures.runs (ran.mono fun _ _ _ _ => Or.inl)
      rw [holds₁, ← holds'] at rest
      rw [done] at made
      refine ⟨begun ▸ roomBody, ?_⟩
      rw [done]
      exact ih _ (only.2 _) sound' rest (further made enough)

theorem run_ensured {p : Program α} {bound : Nat} {Q : α → Contents → Prop}
    (only : p.Only Call.Adds)
    (sound : medium.view.sound s) (ensures : p.Ensures (.upTo bound) (medium.view.holds s) Q)
    (enough : ∀ n, medium.size s ≤ n → n < bound → medium.levelAt s n < NodeId.count) :
    Q (p.run medium.store s).1 (medium.view.holds (p.run medium.store s).2) ∧
      medium.Suffices p s := by
  have room := room_of_ensures only sound ensures enough
  have ran := (medium.faithful.run p sound room).1
  exact ⟨ensures.runs (ran.mono fun _ _ _ _ => Or.inl), suffices_of_room room⟩

end Medium

end BlastRadius
