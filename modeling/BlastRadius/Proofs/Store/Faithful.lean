import BlastRadius.Proofs.Store.Answers

/-!
The laws of a store that keeps its word: an open level remembers the state in which it was begun,
and each call answers as the contents say. On such a store a program does what its run over contents
does.
-/

namespace BlastRadius

def Call.inserts : Call → Bool
  | insertNode _ => true
  | _ => false

def Call.reads : Call → Bool
  | insertNode _ | insertEdge _ | markNodes _ | clearMarks | removeKind _ | reset => false
  | _ => true

/-- Whether a call leaves nodes and edges as they are. -/
def Call.marks : Call → Bool
  | markNodes _ | clearMarks => true
  | q => q.reads

/-- The laws of transaction levels. `opened` lists the states in which the open levels were begun,
the innermost first. A level that cannot be begun leaves no trace, one that cannot be committed
stays open, and rolling back returns to the state in which the level was begun. -/
structure Store.Transactional {σ : Type} (store : Store σ) (opened : σ → List σ) : Prop where
  call_opened (q : Call) (s : σ) : opened (store.call q s).2 = opened s
  begin_ok {s s' : σ} : store.control .begin s = (.ok (), s') → opened s' = s :: opened s
  begin_error {s s' : σ} {error : StoreError} : store.control .begin s =
    (.error error, s') → s' = s
  commit_ok {s b s' : σ} {rest : List σ} : opened s = b :: rest →
    store.control .commit s = (.ok (), s') → opened s' = rest
  commit_error {s b s' : σ} {rest : List σ} {error : StoreError} : opened s = b :: rest →
    store.control .commit s = (.error error, s') → opened s' = opened s
  rollback {s b : σ} {rest : List σ} : opened s = b :: rest →
    store.control .rollback s = (.ok (), b)

namespace Store.Transactional

variable {σ β : Type} {store : Store σ} {opened : σ → List σ}

theorem transaction_cases (laws : store.Transactional opened) {body : σ → Outcome σ β}
    (keeps : ∀ s, opened (body s).2 = opened s) (s : σ) :
    (∃ error, Store.transaction store.control body s = (.error error, s)) ∨
    ∃ value s₁ s₂ s₃, store.control .begin s = (.ok (), s₁) ∧
      body s₁ = (.ok value, s₂) ∧
      store.control .commit s₂ = (.ok (), s₃) ∧ opened s₃ = opened s ∧
      Store.transaction store.control body s = (.ok value, s₃) := by
  rw [Store.transaction]
  rcases hBegin : store.control .begin s with ⟨error | ⟨⟩, s₁⟩
  · obtain rfl := laws.begin_error hBegin
    exact Or.inl ⟨error, rfl⟩
  · have level := laws.begin_ok hBegin
    have still := keeps s₁
    rcases hBody : body s₁ with ⟨error | value, s₂⟩
    · rw [hBody, level] at still
      exact Or.inl ⟨error, by simp only [hBody, Store.abort, laws.rollback still]⟩
    · rw [hBody, level] at still
      rcases hCommit : store.control .commit s₂ with ⟨error | ⟨⟩, s₃⟩
      · have open₃ := (laws.commit_error still hCommit).trans still
        exact Or.inl ⟨error, by simp only [hBody, hCommit, Store.abort, laws.rollback open₃]⟩
      · exact Or.inr ⟨value, s₁, s₂, s₃, rfl, hBody, hCommit, laws.commit_ok still hCommit,
          by simp only [hBody, hCommit]⟩

theorem run_opened (laws : store.Transactional opened)
    (once : ∀ {β : Type} (body : σ → Outcome σ β) (s : σ),
      store.atomically body s = Store.transaction store.control body s)
    (p : Program β) (s : σ) : opened (p.run store s).2 = opened s := by
  induction p generalizing s with
  | done value => rfl
  | call q next ih => exact (ih _ _).trans (laws.call_opened q s)
  | atomically body next ihBody ih =>
      rw [Program.run, ih, once]
      rcases laws.transaction_cases ihBody s with ⟨error, failed⟩ |
        ⟨value, _, _, _, _, _, _, level, done⟩
      · rw [failed]
      · rw [done]
        exact level

end Store.Transactional

/-- How the states of a store are read. -/
structure View (σ : Type) where
  /-- The states in which the open levels were begun, the innermost first. -/
  opened : σ → List σ
  /-- What a state holds. -/
  holds : σ → Contents
  /-- The states in which a store may be. -/
  sound : σ → Prop
  /-- A bound on the identifiers in use, to be less than `NodeId.count` when a node is inserted. -/
  level : σ → Nat

/-- A store whose answers and changes are those that its contents call for. A block runs once, as a
transaction, whose begin and commit do not fail. -/
structure Store.Faithful {σ : Type} (store : Store σ) (view : View σ) : Prop
    extends store.Transactional view.opened where
  once {β : Type} (body : σ → Outcome σ β) (s : σ) :
    store.atomically body s = Store.transaction store.control body s
  begins {s : σ} : view.sound s → ∃ s', store.control .begin s = (.ok (), s') ∧
    view.holds s' = view.holds s ∧ view.sound s' ∧ view.level s' = view.level s
  commits {s b : σ} {rest : List σ} : view.sound s → view.opened s = b :: rest →
    ∃ s', store.control .commit s = (.ok (), s') ∧
      view.holds s' = view.holds s ∧ view.sound s' ∧ view.level s' = view.level s
  answers (q : Call) {s : σ} : view.sound s → (q.inserts → view.level s < NodeId.count) →
    (view.holds s).Step q (store.call q s).1 (view.holds (store.call q s).2) ∧
      view.sound (store.call q s).2 ∧
      view.level (store.call q s).2 ≤
        view.level s + if q.inserts ∧ (store.call q s).1.isOk then 1 else 0

/-- There is an identifier for every node that a program asks for. -/
def Program.Room {σ : Type} (store : Store σ) (level : σ → Nat) :
    {α : Type} → Program α → σ → Prop
  | _, done _, _ => True
  | _, call q next, s => (q.inserts → level s < NodeId.count) ∧
      (next (store.call q s).1).Room store level (store.call q s).2
  | _, atomically body next, s =>
      body.Room store level (store.control .begin s).2 ∧
        (next (store.atomically (fun inner => body.run store inner) s).1).Room store level
          (store.atomically (fun inner => body.run store inner) s).2

/-- Whether there is room can be found out by running the program. -/
def Program.decideRoom {σ : Type} (store : Store σ) (level : σ → Nat) :
    {α : Type} → (p : Program α) → (s : σ) → Decidable (p.Room store level s)
  | _, done _, _ => isTrue trivial
  | _, call q next, s =>
      have := (next (store.call q s).1).decideRoom store level (store.call q s).2
      inferInstanceAs (Decidable ((q.inserts → level s < NodeId.count) ∧ _))
  | _, atomically body next, s =>
      have := body.decideRoom store level (store.control .begin s).2
      have := (next (store.atomically (fun inner => body.run store inner) s).1).decideRoom
          store level
        (store.atomically (fun inner => body.run store inner) s).2
      inferInstanceAs (Decidable (_ ∧ _))

instance {σ α : Type} (store : Store σ) (level : σ → Nat) (p : Program α) (s : σ) :
    Decidable (p.Room store level s) :=
  p.decideRoom store level s

/-- How many nodes a program inserts, those of failed transactions included. -/
def Program.created {σ : Type} (store : Store σ) : {α : Type} → Program α → σ → Nat
  | _, done _, _ => 0
  | _, call q next, s => (if q.inserts ∧ (store.call q s).1.isOk then 1 else 0) +
      (next (store.call q s).1).created store (store.call q s).2
  | _, atomically body next, s =>
      body.created store (store.control .begin s).2 +
        (next (store.atomically (fun inner => body.run store inner) s).1).created store
          (store.atomically (fun inner => body.run store inner) s).2

theorem Contents.Determined.not_inserts {c c' : Contents} {q : Call} {r : Except StoreError q.Reply}
    (determined : Contents.Determined c q r c') : ¬q.inserts := by
  cases q with
  | insertNode node => cases determined
  | _ => exact Bool.false_ne_true

namespace Store.Faithful

variable {σ α β : Type} {store : Store σ} {view : View σ}

/-- What a transaction does: it has the result of its block, and on success the contents. -/
theorem transaction (faithful : store.Faithful view) (body : Program (Except StoreError β))
    {s s₁ : σ}
    (sound : view.sound s) (begun : store.control .begin s = (.ok (), s₁))
    (inner : view.sound (body.run store s₁).2) :
    ∃ s', store.atomically (fun t => body.run store t) s = ((body.run store s₁).1, s') ∧
      view.holds s' = settled (view.holds s) (view.holds (body.run store s₁).2)
        (body.run store s₁).1 ∧
      view.sound s' ∧ view.opened s' = view.opened s ∧
      view.level s' = settled (view.level s) (view.level (body.run store s₁).2)
        (body.run store s₁).1 := by
  have open₁ : view.opened (body.run store s₁).2 = s :: view.opened s :=
    (faithful.run_opened faithful.once body s₁).trans (faithful.begin_ok begun)
  rw [faithful.once, Store.transaction, begun]
  rcases hBody : body.run store s₁ with ⟨error | value, s₂⟩
  · rw [hBody] at open₁
    exact ⟨s, by simp only [hBody, Store.abort, faithful.rollback open₁], rfl, sound,
      rfl, rfl⟩
  · rw [hBody] at open₁ inner
    obtain ⟨s₃, committed, holds, sound₃, level⟩ := faithful.commits inner open₁
    exact ⟨s₃, by simp only [hBody, committed], holds, sound₃,
      faithful.commit_ok open₁ committed,
      level⟩

/-- A program on the store does what a run over its contents does. -/
theorem run (faithful : store.Faithful view) (p : Program α) {s : σ} (sound : view.sound s)
    (room : p.Room store view.level s) :
    p.Runs Contents.Step (view.holds s) (p.run store s).1 (view.holds (p.run store s).2) ∧
      view.sound (p.run store s).2 := by
  induction p generalizing s with
  | done value => exact ⟨⟨rfl, rfl⟩, sound⟩
  | call q next ih =>
      obtain ⟨stepped, sound₁, _⟩ := faithful.answers q sound room.1
      obtain ⟨runs, sound'⟩ := ih _ sound₁ room.2
      exact ⟨⟨_, _, stepped, runs⟩, sound'⟩
  | atomically body next ihBody ih =>
      obtain ⟨s₁, begun, holds₁, sound₁, _⟩ := faithful.begins sound
      obtain ⟨roomBody, roomNext⟩ := room
      rw [begun] at roomBody
      obtain ⟨runsBody, soundBody⟩ := ihBody sound₁ roomBody
      obtain ⟨s', done, holds', sound', -, -⟩ := faithful.transaction body sound begun soundBody
      rw [done] at roomNext
      obtain ⟨runs, soundNext⟩ := ih _ sound' roomNext
      rw [Program.run, done]
      rw [holds₁] at runsBody
      rw [holds'] at runs
      exact ⟨⟨_, _, runsBody, runs⟩, soundNext⟩

theorem call_of_determined (faithful : store.Faithful view) {q : Call} {s : σ}
    {r : Except StoreError q.Reply} {c' : Contents} (sound : view.sound s)
    (determined : Contents.Determined (view.holds s) q r c') :
    (store.call q s).1 = r ∧ view.holds (store.call q s).2 = c' ∧
      view.sound (store.call q s).2 := by
  obtain ⟨stepped, sound', _⟩ := faithful.answers q sound
    fun inserts => absurd inserts determined.not_inserts
  obtain ⟨result, holds⟩ := determined.unique stepped
  exact ⟨result, holds, sound'⟩

/-- A program whose calls the contents determine asks for no new node. -/
theorem room_of_determined (faithful : store.Faithful view) (p : Program α) {s : σ} {x : α}
    {c' : Contents} (sound : view.sound s)
    (runs : p.Runs Contents.Determined (view.holds s) x c') : p.Room store view.level s := by
  induction p generalizing s c' with
  | done value => trivial
  | call q next ih =>
      obtain ⟨r, m, determined, rest⟩ := runs
      obtain ⟨result, holds, sound₁⟩ := faithful.call_of_determined sound determined
      exact ⟨fun inserts => absurd inserts determined.not_inserts,
        ih _ sound₁ (by rw [result, holds]; exact rest)⟩
  | atomically body next ihBody ih =>
      obtain ⟨r, m, inner, rest⟩ := runs
      obtain ⟨s₁, begun, holds₁, sound₁, _⟩ := faithful.begins sound
      rw [← holds₁] at inner
      have roomBody := ihBody sound₁ inner
      obtain ⟨runsBody, soundBody⟩ := faithful.run body sound₁ roomBody
      obtain ⟨result, holds⟩ :=
        inner.unique (fun _ _ _ _ _ _ => Contents.Determined.unique) runsBody
      obtain ⟨s', done, holds', sound', -, -⟩ := faithful.transaction body sound begun soundBody
      refine ⟨by rw [begun]; exact roomBody, ?_⟩
      rw [done]
      rw [← holds, ← result, ← holds'] at rest
      exact ih _ sound' rest

theorem run_of_determined (faithful : store.Faithful view) {p : Program α} {s : σ} {x : α}
    {c' : Contents} (sound : view.sound s)
    (runs : p.Runs Contents.Determined (view.holds s) x c') :
    (p.run store s).1 = x ∧ view.holds (p.run store s).2 = c' ∧
      view.sound (p.run store s).2 := by
  obtain ⟨other, sound'⟩ := faithful.run p sound (faithful.room_of_determined p sound runs)
  obtain ⟨result, holds⟩ := runs.unique (fun _ _ _ _ _ _ => Contents.Determined.unique) other
  exact ⟨result, holds, sound'⟩

theorem room_of_created (faithful : store.Faithful view) (p : Program α) {s : σ}
    (sound : view.sound s) (few : view.level s + p.created store s < NodeId.count) :
    p.Room store view.level s ∧
      view.level (p.run store s).2 ≤ view.level s + p.created store s := by
  induction p generalizing s with
  | done value => exact ⟨trivial, le_rfl⟩
  | call q next ih =>
      rw [Program.created] at few
      have enough : q.inserts → view.level s < NodeId.count := fun _ => by omega
      obtain ⟨_, sound₁, level⟩ := faithful.answers q sound enough
      obtain ⟨room, bound⟩ := ih (store.call q s).1 sound₁ (by omega)
      rw [Program.run, Program.created]
      exact ⟨⟨enough, room⟩, by omega⟩
  | atomically body next ihBody ih =>
      rw [Program.created] at few
      obtain ⟨s₁, begun, holds₁, sound₁, level₁⟩ := faithful.begins sound
      simp only [begun] at few
      obtain ⟨roomBody, boundBody⟩ := ihBody sound₁ (by omega)
      obtain ⟨_, soundBody⟩ := faithful.run body sound₁ roomBody
      obtain ⟨s', done, _, sound', _, level'⟩ := faithful.transaction body sound begun soundBody
      have bound' : view.level s' ≤ view.level s + body.created store s₁ := by
        rw [level']
        cases (body.run store s₁).1 <;> simp only [settled] <;> omega
      simp only [done] at few
      obtain ⟨room, bound⟩ := ih (body.run store s₁).1 sound' (by omega)
      refine ⟨⟨by rw [begun]; exact roomBody, by rw [done]; exact room⟩, ?_⟩
      simp only [Program.run, Program.created, begun, done]
      omega

end Store.Faithful

end BlastRadius
