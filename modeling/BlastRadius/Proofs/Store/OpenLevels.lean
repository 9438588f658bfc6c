import BlastRadius.Proofs.Store.Conversations
import BlastRadius.Proofs.Store.Levels

/-!
Open levels are counted twice: by the connection to a database, and by the store in front that tries
again and must know when a call lies in a transaction. Each count is changed before or after a
statement that may fail, and by rules of its own for commits and rollbacks. They agree nevertheless
after every call, whatever statements fail and whether or not levels are opened and closed in pairs.
-/

namespace BlastRadius

variable {σ τ α β : Type}

/-- A store that counts its open levels, and refuses to close one if there is none. -/
structure Store.CountsLevels (store : Store σ) (depth : σ → Nat) : Prop where
  control : Control.Counted store.control depth
  refuses {request : Control} {s : σ} : request ≠ .begin → depth s = 0 →
    store.control request s = (.error .noTransaction, s)
  call (q : Call) (s : σ) : depth (store.call q s).2 = depth s

namespace Retrying

variable {front : Store τ} {depth : τ → Nat} {policy : RetryPolicy} {t : Retrying τ}

/-- Both counts are the same. -/
def Agrees (depth : τ → Nat) (t : Retrying τ) : Prop := t.depth = depth t.inner

theorem Agrees.control (counted : Control.Counted front.control depth) (agrees : t.Agrees depth)
    (request : Control) : (Retrying.control front request t).2.Agrees depth := by
  obtain ⟨answer, state⟩ := control_inner front request t
  rw [Agrees, control_counted, state, counted, answer, agrees]

theorem Agrees.call (counts : front.CountsLevels depth) (agrees : t.Agrees depth) (q : Call) :
    (Retrying.call policy front q t).2.Agrees depth := by
  rw [Retrying.call]
  split
  · have still := RetryPolicy.attempt_keeps (R := fun s s' => depth s' = depth s)
      (fun first second => second.trans first) policy (counts.call q) policy.maxRetries 0 t.inner
    exact agrees.trans still.symm
  · exact agrees.trans (counts.call q t.inner).symm

theorem Agrees.visited (counts : front.CountsLevels depth) {d : Conversation α} {u : Retrying τ}
    (agrees : t.Agrees depth) (visits : d.Visits policy front t u) : u.Agrees depth :=
  visits.keeps (fun request _ agrees => agrees.control counts.control request)
    (fun q _ agrees => agrees.call counts q) agrees

theorem Agrees.refuses (counts : front.CountsLevels depth) (agrees : t.Agrees depth)
    {request : Control}
    (closing : request ≠ .begin) (none : depth t.inner = 0) :
    Retrying.control front request t = (.error .noTransaction, t) := by
  obtain ⟨inner, level⟩ := t
  obtain rfl : level = 0 := agrees.trans none
  have refused := counts.refuses closing none
  cases request with
  | begin => exact absurd rfl closing
  | _ => simp only [Retrying.control, refused]

end Retrying

namespace RetryPolicy

variable {operation : τ → Outcome τ α} {asked : τ → Nat}

theorem asked_attempt (policy : RetryPolicy) (counts : ∀ t, asked (operation t).2 = asked t + 1)
    (left retry : Nat) (t : τ) :
    asked (policy.attempt operation idle left retry t).state + retry =
      asked t + (policy.attempt operation idle left retry t).calls := by
  induction left generalizing retry t with
  | zero =>
      rw [policy.attempt_last idle (Or.inr rfl), counts, Nat.add_assoc, Nat.add_comm 1]
  | succ left ih =>
      rcases again : transient (operation t).1 with _ | _
      · rw [policy.attempt_last idle (Or.inl again), counts, Nat.add_assoc, Nat.add_comm 1]
      · have later := ih (retry + 1) (operation t).2
        rw [counts] at later
        rw [policy.attempt_next idle again, idle]
        omega

theorem one_lt_calls_iff (policy : RetryPolicy) (operation : τ → Outcome τ α) (t : τ) :
    1 < (policy.run operation t).calls ↔ 0 < policy.maxRetries ∧
      transient (operation t).1 = true := by
  have later (left retry : Nat) (t : τ) :
      retry < (policy.attempt operation idle left retry t).calls := by
    induction left generalizing retry t with
    | zero =>
        rw [policy.attempt_last idle (Or.inr rfl)]
        exact Nat.lt_succ_self retry
    | succ left ih =>
        rcases again : transient (operation t).1 with _ | _
        · rw [policy.attempt_last idle (Or.inl again)]
          exact Nat.lt_succ_self retry
        · rw [policy.attempt_next idle again]
          exact (Nat.lt_succ_self retry).trans (ih _ _)
  rw [run]
  rcases policy.maxRetries with _ | left
  · rw [policy.attempt_last idle (Or.inr rfl)]
    simp
  · rcases again : transient (operation t).1 with _ | _
    · rw [policy.attempt_last idle (Or.inl again)]
      simp
    · rw [policy.attempt_next idle again]
      simp [later left 1]

end RetryPolicy

namespace Retrying

variable {front : Store τ} {depth asked : τ → Nat} {policy : RetryPolicy} {t : Retrying τ}

theorem asked_call (policy : RetryPolicy) (asks : ∀ q s, asked (front.call q s).2 = asked s + 1)
    (q : Call) (t : Retrying τ) :
    asked (Retrying.call policy front q t).2.inner = asked t.inner +
      if t.depth = 0 then (policy.run (front.call q) t.inner).calls else 1 := by
  rw [Retrying.call]
  split
  · exact policy.asked_attempt (asks q) policy.maxRetries 0 t.inner
  · exact asks q t.inner

/-- Both counts are the same, and what is done goes by them: requests change both alike, none is
closed that is not open, and what is tried again is a call outside all levels, and no other. -/
structure Consistent (policy : RetryPolicy) (front : Store τ) (depth asked : τ → Nat)
    (t : Retrying τ) :
    Prop where
  agrees : t.Agrees depth
  changes {request : Control} {level : Nat} :
    request.levels? (Retrying.control front request t).1 t.depth = some level →
      (Retrying.control front request t).2.depth = level ∧
        depth (Retrying.control front request t).2.inner = level
  refuses {request : Control} :
    request.levels? (Retrying.control front request t).1 t.depth = none →
      Retrying.control front request t = (.error .noTransaction, t)
  again (q : Call) :
    asked t.inner + 1 < asked (Retrying.call policy front q t).2.inner ↔
      depth t.inner = 0 ∧ 0 < policy.maxRetries ∧ transient (front.call q t.inner).1 = true

theorem Agrees.consistent (counts : front.CountsLevels depth)
    (asks : ∀ q s, asked (front.call q s).2 = asked s + 1) (agrees : t.Agrees depth) :
    t.Consistent policy front depth asked where
  agrees := agrees
  changes {request level} levels := by
    have counted := control_counted front request t
    rw [levels] at counted
    exact ⟨counted, (agrees.control counts.control request).symm.trans counted⟩
  refuses {request} none := by
    obtain ⟨closing, level⟩ := Control.levels?_eq_none none
    exact agrees.refuses counts closing (agrees.symm.trans level)
  again q := by
    rw [asked_call policy asks, ← policy.one_lt_calls_iff, ← show t.depth =
      depth t.inner from agrees]
    by_cases none : t.depth = 0
    · simp [none]
    · simp [none]

end Retrying

end BlastRadius
