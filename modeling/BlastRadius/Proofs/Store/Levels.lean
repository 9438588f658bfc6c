import BlastRadius.Proofs.Store.Dialogues
import BlastRadius.Proofs.Store.Medium

/-!
How requests change the number of open levels, which a store may count, and dialogues that close the
levels that they open. Such a dialogue between a begin and a rollback leaves no trace, whatever is
committed or rolled back within it.
-/

namespace BlastRadius

variable {σ α β : Type}

/-- The number of open levels after a request that was answered. There is none if the request closes
a level and none is open. -/
def Control.levels? : Control → Except StoreError Unit → Nat → Option Nat
  | begin, .ok _, n => some (n + 1)
  | begin, .error _, n => some n
  | commit, .ok _, n + 1 => some n
  | commit, .error _, n + 1 => some (n + 1)
  | rollback, _, n + 1 => some n
  | commit, _, 0 => none
  | rollback, _, 0 => none

theorem Control.levels?_add {request : Control} {answer : Except StoreError Unit} {n m : Nat}
    (levels : request.levels? answer n = some m) (k : Nat) :
    request.levels? answer (n + k) = some (m + k) := by
  cases request with
  | begin =>
      cases answer with
      | ok value =>
          obtain rfl := Option.some.inj levels
          exact congrArg some (Nat.add_right_comm n k 1)
      | error error =>
          obtain rfl := Option.some.inj levels
          rfl
  | commit =>
      obtain _ | n := n
      · cases answer <;> cases levels
      · rw [Nat.add_right_comm]
        cases answer with
        | ok value =>
            obtain rfl := Option.some.inj levels
            rfl
        | error error =>
            obtain rfl := Option.some.inj levels
            exact congrArg some (Nat.add_right_comm n k 1)
  | rollback =>
      obtain _ | n := n
      · cases levels
      · rw [Nat.add_right_comm]
        obtain rfl := Option.some.inj levels
        rfl

theorem Control.levels?_eq_none {request : Control} {answer : Except StoreError Unit} {n : Nat}
    (none : request.levels? answer n = none) : request ≠ .begin ∧ n = 0 := by
  cases request with
  | begin => cases answer <;> cases none
  | commit =>
      obtain _ | n := n
      · exact ⟨by simp, rfl⟩
      · cases answer <;> cases none
  | rollback =>
      obtain _ | n := n
      · exact ⟨by simp, rfl⟩
      · cases none

/-- Requests change a number of open levels by what is answered to them. Where none is open,
there is none to close. -/
def Control.Counted (control : Control → σ → Outcome σ Unit) (depth : σ → Nat) : Prop :=
  ∀ request s, depth (control request s).2 =
    (request.levels? (control request s).1 (depth s)).getD 0

theorem Control.Counted.transaction {control : Control → σ → Outcome σ Unit}
    {depth : σ → Nat}
    (counted : Control.Counted control depth) {body : σ → Outcome σ β}
    (keeps : ∀ s, depth (body s).2 = depth s) (s : σ) :
    depth (Store.transaction control body s).2 = depth s := by
  -- The block ends where it was begun, one level above, from which each way out leads down: a
  -- commit, and a rollback after the block or the commit has failed.
  have closes {s' : σ} (level : depth s' = depth s + 1) :
      depth (control .rollback s').2 = depth s := by
    rw [counted, level]
    rfl
  have begun := counted .begin s
  rw [Store.transaction]
  rcases opening : control .begin s with ⟨error | _, s₁⟩
  · rw [opening] at begun
    exact begun
  · rw [opening] at begun
    have still := (keeps s₁).trans begun
    rcases ended : body s₁ with ⟨error | value, s₂⟩
    · rw [ended] at still
      simp only [ended]
      exact closes still
    · rw [ended] at still
      have committed := counted .commit s₂
      simp only [ended]
      rcases closing : control .commit s₂ with ⟨error | _, s₃⟩
      · rw [closing, still] at committed
        exact closes committed
      · rw [closing, still] at committed
        exact committed

namespace Dialogue

/-- The number of open levels after a dialogue that starts with some, or none if the dialogue closes
a level when all of them are closed. Levels further down do not count. -/
def levels? (store : Store σ) : Dialogue α → Nat → σ → Option Nat
  | done _, n, _ => some n
  | call q next, n, s => (next (store.call q s).1).levels? store n (store.call q s).2
  | control request next, n, s =>
      (request.levels? (store.control request s).1 n).bind fun m =>
        (next (store.control request s).1).levels? store m (store.control request s).2

/-- A dialogue closes every level that it opens and no other. -/
def Balanced (store : Store σ) (d : Dialogue α) (s : σ) : Prop := d.levels? store 0 s = some 0

/-- Whatever follows a dialogue goes as if the dialogue had not been. -/
def Unseen (store : Store σ) (d : Dialogue α) (s : σ) : Prop :=
  ∀ {β : Type} (later : Dialogue β), (do let _ ← d; later).run store s = later.run store s

/-- A dialogue in a level that is rolled back. -/
def rolledBack (d : Dialogue α) : Dialogue (Except StoreError Unit) := do
  let _ ← request .begin
  let _ ← d
  request .rollback

/-- A dialogue in a level that is committed. -/
def committed (d : Dialogue α) : Dialogue α := do
  let _ ← request .begin
  let value ← d
  let _ ← request .commit
  return value

variable {store : Store σ}

theorem levels?_bind (d : Dialogue α) (f : α → Dialogue β) (n : Nat) (s : σ) :
    (d >>= f).levels? store n s = (d.levels? store n s).bind fun m =>
      (f (d.run store s).1).levels? store m (d.run store s).2 := by
  change (d.bind f).levels? store n s = _
  induction d generalizing n s with
  | done value => rfl
  | call q next ih => exact ih _ _ _
  | control request next ih =>
      simp only [bind, levels?, run, ih, Option.bind_assoc]

theorem levels?_request (request : Control) (f : Except StoreError Unit → Dialogue α)
    (n : Nat) (s : σ) :
    (Dialogue.request request >>= f).levels? store n s =
      (request.levels? (store.control request s).1 n).bind fun m =>
        (f (store.control request s).1).levels? store m (store.control request s).2 := rfl

theorem levels?_add (d : Dialogue α) {n m : Nat} {s : σ} (levels : d.levels? store n s = some m)
    (k : Nat) : d.levels? store (n + k) s = some (m + k) := by
  induction d generalizing n s with
  | done value =>
      obtain rfl := Option.some.inj levels
      rfl
  | call q next ih => exact ih _ levels
  | control request next ih =>
      obtain ⟨between, first, rest⟩ := Option.bind_eq_some_iff.mp levels
      rw [levels?, Control.levels?_add first k]
      exact ih _ rest

theorem Balanced.bind {d : Dialogue α} {f : α → Dialogue β} {s : σ}
    (first : d.Balanced store s)
    (second : (f (d.run store s).1).Balanced store (d.run store s).2) :
    (d >>= f).Balanced store s := by
  rw [Balanced, levels?_bind, first]
  exact second

end Dialogue

/-- A store on which a level can always be begun and the innermost one always be committed. A level
was begun below the levels that were open then. -/
structure Store.Reliable (store : Store σ) (opened : σ → List σ) : Prop
    extends store.Transactional opened where
  begins (s : σ) : (store.control .begin s).1 = .ok ()
  commits {s b : σ} {rest : List σ} : opened s = b :: rest →
    (store.control .commit s).1 = .ok ()
  below {s b : σ} {rest : List σ} : opened s = b :: rest → opened b = rest

namespace Store.Reliable

variable {store : Store σ} {opened : σ → List σ}

theorem begun (reliable : store.Reliable opened) (s : σ) :
    store.control .begin s = (.ok (), (store.control .begin s).2) :=
  Prod.ext (reliable.begins s) rfl

theorem begun_opened (reliable : store.Reliable opened) (s : σ) :
    opened (store.control .begin s).2 = s :: opened s :=
  reliable.begin_ok (reliable.begun s)

theorem control_opened (reliable : store.Reliable opened) {request : Control} {s : σ}
    {top rest : List σ} {m : Nat} (above : opened s = top ++ rest)
    (levels : request.levels? (store.control request s).1 top.length = some m) :
    ∃ top', opened (store.control request s).2 = top' ++ rest ∧ top'.length = m := by
  cases request with
  | begin =>
      rw [reliable.begins] at levels
      obtain rfl := Option.some.inj levels
      exact ⟨s :: top, (reliable.begun_opened s).trans (congrArg (s :: ·) above), rfl⟩
  | commit =>
      obtain _ | ⟨b, top⟩ := top
      · cases answer : (store.control .commit s).1 <;> rw [answer] at levels <;> cases levels
      · have answer := reliable.commits above
        rw [answer] at levels
        obtain rfl := Option.some.inj levels
        exact ⟨top, reliable.commit_ok above (Prod.ext answer rfl), rfl⟩
  | rollback =>
      obtain _ | ⟨b, top⟩ := top
      · cases levels
      · obtain rfl := Option.some.inj levels
        refine ⟨top, ?_, rfl⟩
        rw [reliable.rollback above]
        exact reliable.below above

theorem run_opened (reliable : store.Reliable opened) (d : Dialogue α) {s : σ}
    {top rest : List σ}
    {m : Nat} (above : opened s = top ++ rest) (levels : d.levels? store top.length s = some m) :
    ∃ top', opened (d.run store s).2 = top' ++ rest ∧ top'.length = m := by
  induction d generalizing s top with
  | done value => exact ⟨top, above, Option.some.inj levels⟩
  | call q next ih => exact ih _ ((reliable.call_opened q s).trans above) levels
  | control request next ih =>
      obtain ⟨between, first, later⟩ := Option.bind_eq_some_iff.mp levels
      obtain ⟨top', above', rfl⟩ := reliable.control_opened above first
      exact ih _ above' later

theorem run_balanced (reliable : store.Reliable opened) {d : Dialogue α} {s : σ}
    (balanced : d.Balanced store s) : opened (d.run store s).2 = opened s := by
  have above : opened s = [] ++ opened s := rfl
  obtain ⟨top, above, none⟩ := reliable.run_opened d above balanced
  rwa [List.eq_nil_of_length_eq_zero none] at above

/-- A level that is rolled back leaves no trace. -/
theorem run_rolledBack (reliable : store.Reliable opened) {d : Dialogue α} {s : σ}
    (balanced : d.Balanced store (store.control .begin s).2) :
    d.rolledBack.run store s = (.ok (), s) := by
  have level := (reliable.run_balanced balanced).trans (reliable.begun_opened s)
  rw [Dialogue.rolledBack, Dialogue.run_bind, Dialogue.run_bind]
  exact reliable.rollback level

theorem balanced_committed (reliable : store.Reliable opened) {d : Dialogue α} {s : σ}
    (balanced : d.Balanced store (store.control .begin s).2) : d.committed.Balanced store s := by
  have level := (reliable.run_balanced balanced).trans (reliable.begun_opened s)
  have answer := reliable.commits level
  have inner : d.levels? store 1 (store.control .begin s).2 = some 1 :=
    Dialogue.levels?_add d balanced 1
  rw [Dialogue.Balanced, Dialogue.committed, Dialogue.levels?_request, reliable.begins]
  change (d >>= _).levels? store 1 _ = _
  rw [Dialogue.levels?_bind, inner, Option.bind_some, Dialogue.levels?_request, answer]
  rfl

end Store.Reliable

namespace Store.Mirrors

variable {τ : Type} {store : Store σ} {other : Store τ} {image : τ → σ}
    {opened : τ → List τ}

theorem levels? (mirrors : store.Mirrors other image) (d : Dialogue α) (n : Nat) (t : τ) :
    d.levels? store n (image t) = d.levels? other n t := by
  induction d generalizing n t with
  | done value => rfl
  | call q next ih =>
      rw [Dialogue.levels?, mirrors.call]
      exact ih _ _ _
  | control request next ih =>
      rw [Dialogue.levels?, mirrors.control]
      exact congrArg _ (funext fun m => ih _ _ _)

theorem balanced (mirrors : store.Mirrors other image) (d : Dialogue α) (t : τ) :
    d.Balanced store (image t) ↔ d.Balanced other t := by
  rw [Dialogue.Balanced, mirrors.levels?, Dialogue.Balanced]

theorem begun (mirrors : store.Mirrors other image) (t : τ) :
    (store.control .begin (image t)).2 = image (other.control .begin t).2 := by
  rw [mirrors.control]
  rfl

theorem run_state (mirrors : store.Mirrors other image) (d : Dialogue α) (t : τ) :
    (d.run store (image t)).2 = image (d.run other t).2 := by
  rw [mirrors.run]
  rfl

theorem rolledBack_unseen (mirrors : store.Mirrors other image) (reliable : other.Reliable opened)
    {d : Dialogue α} {t : τ} (balanced : d.Balanced store (store.control .begin (image t)).2) :
    d.rolledBack.Unseen store (image t) := by
  rw [mirrors.begun, mirrors.balanced] at balanced
  intro β later
  rw [Dialogue.run_bind, mirrors.run, reliable.run_rolledBack balanced]
  rfl

theorem balanced_committed (mirrors : store.Mirrors other image) (reliable : other.Reliable opened)
    {d : Dialogue α} {t : τ} (balanced : d.Balanced store (store.control .begin (image t)).2) :
    d.committed.Balanced store (image t) := by
  rw [mirrors.begun, mirrors.balanced] at balanced
  rw [mirrors.balanced]
  exact reliable.balanced_committed balanced

end Store.Mirrors

theorem Memory.reliable : Memory.store.Reliable Memory.view.opened where
  toTransactional := Memory.transactional
  begins _ := rfl
  commits := by
    rintro ⟨graph, _ | ⟨saved, snapshots⟩⟩ b rest opened
    · cases opened
    · rfl
  below := by
    rintro ⟨graph, _ | ⟨saved, snapshots⟩⟩ b rest opened
    · cases opened
    · cases opened
      rfl

theorem Database.reliable : Database.store.Reliable Database.view.opened where
  toTransactional := Database.transactional
  begins _ := rfl
  commits := by
    rintro ⟨tables, _ | ⟨saved, savepoints⟩⟩ b rest opened
    · cases opened
    · rfl
  below := by
    rintro ⟨tables, _ | ⟨saved, savepoints⟩⟩ b rest opened
    · cases opened
    · cases opened
      rfl

end BlastRadius
