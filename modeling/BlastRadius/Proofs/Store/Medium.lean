import BlastRadius.Proofs.Store.Database
import BlastRadius.Proofs.Store.Memory
import BlastRadius.Proofs.Store.Reading

/-!
The two stores under one name, for what holds of both.
-/

namespace BlastRadius

/-- Where a graph is kept. -/
inductive Medium where
  | memory
  | database

namespace Medium

abbrev State : Medium → Type
  | memory => Memory
  | database => Database

def store : (medium : Medium) → Store medium.State
  | memory => Memory.store
  | database => Database.store

/-- How its states are read. They are sound when the graph, or the tables, are valid. -/
def view : (medium : Medium) → View medium.State
  | memory => Memory.view
  | database => Database.view

def initial : (medium : Medium) → medium.State
  | memory => {}
  | database => {}

noncomputable def size (medium : Medium) (s : medium.State) : Nat :=
  (medium.view.holds s).live.ncard

theorem faithful (medium : Medium) : medium.store.Faithful medium.view := by
  cases medium with
  | memory => exact Memory.faithful
  | database => exact Database.faithful

theorem valid_of_sound (medium : Medium) {s : medium.State} (sound : medium.view.sound s) :
    (medium.view.holds s).Valid := by
  cases medium with
  | memory => exact DependencyGraph.Valid.contents sound
  | database => exact Tables.Valid.contents sound

theorem initial_sound (medium : Medium) : medium.view.sound medium.initial := by
  cases medium with
  | memory => exact DependencyGraph.empty_valid
  | database => exact Tables.empty_valid

theorem initial_holds (medium : Medium) : medium.view.holds medium.initial = .empty := by
  cases medium with
  | memory => exact DependencyGraph.contents_empty
  | database => exact DependencyGraph.contents_empty

theorem run_of_leads (medium : Medium) {α : Type} {p : Program α} {s : medium.State} {x : α}
    {c' : Contents} (sound : medium.view.sound s) (leads : Leads p (medium.view.holds s) x c') :
    ∃ s', p.run medium.store s = (x, s') ∧ medium.view.holds s' = c' ∧
      medium.view.sound s' := by
  obtain ⟨answer, holds, sound'⟩ := medium.faithful.run_of_determined sound leads
  exact ⟨_, Prod.ext answer rfl, holds, sound'⟩

theorem sound_of_few (medium : Medium) {α : Type} (p : Program α)
    (few : medium.view.level medium.initial + p.created medium.store medium.initial <
      NodeId.count) :
    medium.view.sound (p.run medium.store medium.initial).2 :=
  (medium.faithful.run p medium.initial_sound
    (medium.faithful.room_of_created p medium.initial_sound few).1).2

theorem runs_of_room (medium : Medium) {α : Type} (p : Program α)
    (room : p.Room medium.store medium.view.level medium.initial) :
    p.Runs Contents.Step .empty (p.run medium.store medium.initial).1
      (medium.view.holds (p.run medium.store medium.initial).2) := by
  have ran := (medium.faithful.run p medium.initial_sound room).1
  rwa [medium.initial_holds] at ran

end Medium

end BlastRadius
