import BlastRadius.Proofs.Graph.Coherence
import BlastRadius.Proofs.Store.LoadedGraph

/-!
The states that a store can come to be in, at any transaction depth. They are sound, and so is every
state to which an open level can be rolled back.
-/

namespace BlastRadius

/-- The first state of a store and those that calls, requests and changes by other hands lead to. A
call is made only where it is admitted. -/
inductive Store.Reachable {σ : Type} (store : Store σ) (admits : Call → σ → Prop)
    (otherwise : σ → σ → Prop) (first : σ) : σ → Prop where
  | start : Reachable store admits otherwise first first
  | call (q : Call) {s : σ} (before : Reachable store admits otherwise first s)
      (admitted : admits q s) : Reachable store admits otherwise first (store.call q s).2
  | control (request : Control) {s : σ} (before : Reachable store admits otherwise first s) :
      Reachable store admits otherwise first (store.control request s).2
  | change {s s' : σ} (before : Reachable store admits otherwise first s)
      (changed : otherwise s s') : Reachable store admits otherwise first s'

namespace Store.Reachable

variable {σ : Type} {store : Store σ} {admits : Call → σ → Prop}
    {otherwise : σ → σ → Prop}
  {first s : σ}

theorem invariant {I : σ → Prop} (start : I first)
    (call : ∀ q s, I s → admits q s → I (store.call q s).2)
    (control : ∀ request s, I s → I (store.control request s).2)
    (change : ∀ s s', I s → otherwise s s' → I s')
    (reached : store.Reachable admits otherwise first s) : I s := by
  induction reached with
  | start => exact start
  | call q _ admitted ih => exact call q _ ih admitted
  | control request _ ih => exact control request _ ih
  | change _ changed ih => exact change _ _ ih changed

theorem transaction {β : Type} {body : σ → Outcome σ β}
    (inside : store.Reachable admits otherwise first (store.control .begin s).2 →
      store.Reachable admits otherwise first (body (store.control .begin s).2).2)
    (reached : store.Reachable admits otherwise first s) :
    store.Reachable admits otherwise first (Store.transaction store.control body s).2 :=
  Store.transaction_keeps (fun request _ before => before.control request) inside reached

theorem run {α : Type} {level : σ → Nat}
    (once : ∀ {β : Type} (body : σ → Outcome σ β) (s : σ),
      store.atomically body s = Store.transaction store.control body s)
    (enough : ∀ q s, store.Reachable admits otherwise first s →
      (q.inserts = true → level s < NodeId.count) → admits q s) (p : Program α)
    (reached : store.Reachable admits otherwise first s) (room : p.Room store level s) :
    store.Reachable admits otherwise first (p.run store s).2 := by
  induction p generalizing s with
  | done value => exact reached
  | call q next ih => exact ih _ (reached.call q (enough q s reached room.1)) room.2
  | atomically body next ihBody ih =>
      refine ih _ ?_ room.2
      rw [once]
      exact transaction (fun begun => ihBody begun room.1) reached

end Store.Reachable

theorem Program.room_of_low {σ α : Type} {store : Store σ} {level : σ → Nat}
    (low : ∀ s, level s < NodeId.count) (p : Program α) (s : σ) : p.Room store level s := by
  induction p generalizing s with
  | done value => trivial
  | call q next ih => exact ⟨fun _ => low s, ih _ _⟩
  | atomically body next ihBody ih => exact ⟨ihBody _, ih _ _⟩

namespace Memory

/-- The graph of a memory and those of its open levels are valid and have lost no identifier. -/
structure Sound (memory : Memory) : Prop where
  graph : memory.graph.Accounted
  snapshots : ∀ graph ∈ memory.snapshots, graph.Accounted

theorem initial_sound : Sound {} := ⟨DependencyGraph.empty_accounted, nofun⟩

variable {memory : Memory}

theorem answers_tried (q : Call) (valid : memory.graph.Valid)
    (room : q.inserts = true → memory.graph.HasRoom) :
    Contents.Tried memory.graph.contents q (call q memory).1 (call q memory).2.graph.contents := by
  by_cases inserts : q.inserts = true
  · cases q with
    | insertNode node =>
        rcases DependencyGraph.addNode_cases valid (room rfl) node with
          ⟨key, id, own, held, refused⟩ | ⟨unkeyed, g, added, valid', holds⟩
        · have done : call (.insertNode node) memory =
              (.error (.uniqueViolation key.canonical), memory) := by
            rw [call, refused]
            rfl
          rw [done]
          exact Or.inl (Or.inl ⟨key, own, ⟨id, held⟩, rfl, rfl⟩)
        · have done : call (.insertNode node) memory =
              (.ok memory.graph.nextId, { memory with graph := g }) := by
            rw [call, added]
            rfl
          rw [done]
          have fresh := DependencyGraph.nextId_fresh valid (room rfl)
          exact Or.inl (Or.inr ⟨unkeyed, _, fresh, rfl, holds⟩)
    | _ => cases inserts
  · exact Or.inl (faithful.answers q valid fun asks => absurd asks inserts).1

theorem call_accounted (accounted : memory.graph.Accounted) (q : Call)
    (spare : q.inserts = true → memory.graph.HasSpare) : (call q memory).2.graph.Accounted := by
  have changed {α : Type} {result : Except GraphError (α × DependencyGraph)}
      (after : (memory.graph.after result).Accounted) :
        (memory.change result).2.graph.Accounted := by
    rcases result with _ | ⟨_, _⟩ <;> exact after
  cases q with
  | insertNode node => exact changed (accounted.add (spare rfl) node)
  | insertEdge e => exact changed (accounted.link e)
  | markNodes ids => exact changed (accounted.mark ids)
  | clearMarks => exact accounted.clearMarks
  | removeKind kind => exact accounted.removeKind kind
  | reset => exact DependencyGraph.empty_accounted
  | _ => exact accounted

theorem Sound.call (sound : memory.Sound) (q : Call)
    (spare : q.inserts = true → memory.graph.HasSpare) : (call q memory).2.Sound := by
  constructor
  · exact call_accounted sound.graph q spare
  · rw [call_snapshots]
    exact sound.snapshots

theorem Sound.control (sound : memory.Sound) (request : Control) :
    (control request memory).2.Sound := by
  obtain ⟨graph, snapshots⟩ := memory
  cases request with
  | begin => exact ⟨sound.graph, List.forall_mem_cons.mpr ⟨sound.graph, sound.snapshots⟩⟩
  | commit =>
      obtain _ | ⟨saved, snapshots⟩ := snapshots
      · exact sound
      · exact ⟨sound.graph, (List.forall_mem_cons.mp sound.snapshots).2⟩
  | rollback =>
      obtain _ | ⟨saved, snapshots⟩ := snapshots
      · exact sound
      · obtain ⟨accounted, below⟩ := List.forall_mem_cons.mp sound.snapshots
        exact ⟨accounted, below⟩

/-- Neither the graph nor one to return to has used every identifier. -/
structure Spacious (memory : Memory) : Prop extends memory.Sound where
  next : memory.graph.next < NodeId.count
  saved : ∀ graph ∈ memory.snapshots, graph.next < NodeId.count

theorem Spacious.hasRoom (spacious : memory.Spacious) : memory.graph.HasRoom :=
  fun _ => spacious.next

theorem Spacious.call (spacious : memory.Spacious) (q : Call)
    (few : q.inserts = true → memory.graph.nodes.length + 1 < NodeId.count) :
    (call q memory).2.Spacious := by
  have valid := spacious.graph.toValid
  have spare : memory.graph.HasSpare :=
    ⟨_, DependencyGraph.contains_eq_false.mpr
      (DependencyGraph.nextId_fresh valid spacious.hasRoom)⟩
  refine ⟨spacious.toSound.call q fun _ => spare, ?_, call_snapshots q memory ▸
    spacious.saved⟩
  have level := (faithful.answers q valid fun _ => spacious.next).2.2
  change (Memory.call q memory).2.graph.next ≤ memory.graph.next + _ at level
  by_cases inserts : q.inserts = true
  · cases q with
    | insertNode node =>
        rcases added : memory.graph.addNode node with error | ⟨id, g⟩
        · rw [Memory.call, added]
          exact spacious.next
        · rw [Memory.call, added]
          obtain ⟨-, -, -, -, -, next⟩ := DependencyGraph.addNode_ok added
          change g.next < _
          rw [next]
          split
          · next none =>
            have filled := spacious.graph.next_le_length none
            have few := few rfl
            omega
          · exact spacious.next
    | _ => cases inserts
  · rw [if_neg fun asks => inserts asks.1] at level
    exact level.trans_lt spacious.next

theorem Spacious.control (spacious : memory.Spacious) (request : Control) :
    (control request memory).2.Spacious := by
  have sound := spacious.toSound.control request
  obtain ⟨⟨-, -⟩, next, saved⟩ := spacious
  obtain ⟨graph, snapshots⟩ := memory
  cases request with
  | begin => exact ⟨sound, next, List.forall_mem_cons.mpr ⟨next, saved⟩⟩
  | commit =>
      obtain _ | ⟨kept, snapshots⟩ := snapshots
      · exact ⟨sound, next, saved⟩
      · exact ⟨sound, next, (List.forall_mem_cons.mp saved).2⟩
  | rollback =>
      obtain _ | ⟨kept, snapshots⟩ := snapshots
      · exact ⟨sound, next, saved⟩
      · obtain ⟨next, below⟩ := List.forall_mem_cons.mp saved
        exact ⟨sound, next, below⟩

/-- There is room for a program that makes nodes only while there are fewer than one can count. -/
theorem room_of_few {α : Type} {p : Program α} (spacious : memory.Spacious)
    (few : p.Room store (fun memory => memory.graph.nodes.length + 1) memory) :
    p.Room store view.level memory ∧ (p.run store memory).2.Spacious := by
  induction p generalizing memory with
  | done value => exact ⟨trivial, spacious⟩
  | call q next ih =>
      obtain ⟨room, left⟩ := ih _ (spacious.call q few.1) few.2
      exact ⟨⟨fun _ => spacious.next, room⟩, left⟩
  | atomically body next ihBody ih =>
      have begun := ihBody (spacious.control .begin) few.1
      have ended : (store.atomically (fun t => body.run store t) memory).2.Spacious :=
        Store.transaction_keeps (fun request _ open_ => open_.control request) (fun _ => begun.2)
          spacious
      obtain ⟨room, left⟩ := ih _ ended few.2
      exact ⟨⟨begun.1, room⟩, left⟩

end Memory

namespace Medium

/-- Whether a call may be made. A memory in which every identifier is in use takes no further node;
the database refuses one by itself. -/
def Admits : (medium : Medium) → Call → medium.State → Prop
  | memory, q, (s : Memory) => q.inserts = true → s.graph.HasSpare
  | database, _, _ => True

/-- The states that calls and transactions lead to from the empty store. -/
def Reachable (medium : Medium) (s : medium.State) : Prop :=
  medium.store.Reachable medium.Admits (fun _ _ => False) medium.initial s

theorem memory_sound {s : Memory} (reached : memory.Reachable s) : s.Sound :=
  Store.Reachable.invariant Memory.initial_sound (fun q _ sound spare => sound.call q spare)
    (fun request _ sound => sound.control request) (fun _ _ _ => nofun) reached

theorem database_sound {s : Database} (reached : database.Reachable s) : s.Sound :=
  Store.Reachable.invariant Database.initial_sound (fun q _ sound _ => sound.call q)
    (fun request _ sound => sound.control request) (fun _ _ _ => nofun) reached

namespace Reachable

variable {medium : Medium} {s : medium.State}

theorem sound (reached : medium.Reachable s) : medium.view.sound s := by
  cases medium with
  | memory => exact (memory_sound reached).graph.toValid
  | database => exact (database_sound reached).tables

theorem valid (reached : medium.Reachable s) : (medium.view.holds s).Valid :=
  medium.valid_of_sound reached.sound

theorem tried (reached : medium.Reachable s) {q : Call} (admitted : medium.Admits q s) :
    Contents.Tried (medium.view.holds s) q (medium.store.call q s).1
      (medium.view.holds (medium.store.call q s).2) := by
  cases medium with
  | memory =>
      have accounted := (memory_sound reached).graph
      exact Memory.answers_tried q accounted.toValid fun asks => accounted.hasRoom (admitted asks)
  | database => exact (Database.answers_tried q reached.sound).1

theorem run {α : Type} (reached : medium.Reachable s) (p : Program α)
    (enough : medium.Suffices p s) : medium.Reachable (p.run medium.store s).2 := by
  cases medium with
  | memory =>
      refine Store.Reachable.run (fun _ _ => rfl) (fun q s reached room asks => ?_) p reached enough
      have missing : (s : Memory).graph.contains (NodeId.ofNat s.graph.next) = false := by
        rw [← Bool.not_eq_true, DependencyGraph.contains_iff]
        intro live
        exact absurd (NodeId.toNat_ofNat (room asks)) ((memory_sound reached).graph.below _ live).ne
      exact ⟨_, missing⟩
  | database =>
      have low (s : Database) : 0 < NodeId.count := by decide
      exact Store.Reachable.run (fun _ _ => rfl) (fun _ _ _ _ => trivial) p reached
        (p.room_of_low low s)

end Reachable

end Medium

end BlastRadius
