import BlastRadius.Proofs.Store.Interruption
import Mathlib.Order.Bounds.Basic

/-!
What it takes to try an operation again and again: how often it is called, with what waits between
the calls, and what comes of it. The last call is the first one that succeeds or fails for good, or
the one for which no retry is left.

The attempts that are reported are the calls that were made, as long as these fit into a word.
-/

namespace BlastRadius.RetryPolicy

variable {σ α : Type} {policy : RetryPolicy}

section Last

variable (policy) (operation : σ → Outcome σ α) (pause : Nat → σ → σ)

/-- The state in which the call with a number is made, if none before it was the last one. -/
def before (state : σ) : Nat → σ
  | 0 => state
  | n + 1 => pause (policy.backoff n) (operation (before state n)).2

theorem attempt_eq {state : σ} {left retry last : Nat} (begun : retry ≤ last)
    (bounded : last ≤ retry + left)
    (again : ∀ n, retry ≤ n → n < last →
      transient (operation (policy.before operation pause state n)).1 = true)
    (ended : transient (operation (policy.before operation pause state last)).1 = false ∨
      last = retry + left) :
    policy.attempt operation pause left retry (policy.before operation pause state retry) =
      ⟨reported last (operation (policy.before operation pause state last)).1,
        (operation (policy.before operation pause state last)).2, last + 1⟩ := by
  induction left generalizing retry with
  | zero =>
      obtain rfl : retry = last := by omega
      exact policy.attempt_last pause (Or.inr rfl) retry
  | succ left ih =>
      rcases Nat.eq_or_lt_of_le begun with rfl | more
      · exact policy.attempt_last pause (ended.imp_right fun h => by omega) retry
      · rw [policy.attempt_next pause (again retry le_rfl more)]
        exact ih more (by omega) (fun n le lt => again n (by omega) lt)
          (ended.imp_right fun h => by omega)

/-- The calls end at the first one that succeeds, fails for good or has no retry left. -/
theorem run_eq {state : σ} {last : Nat}
    (least : IsLeast {n | transient (operation (policy.before operation pause state n)).1 =
      false ∨
      n = policy.maxRetries} last) :
    policy.run operation state pause =
      ⟨reported last (operation (policy.before operation pause state last)).1,
        (operation (policy.before operation pause state last)).2, last + 1⟩ := by
  obtain ⟨ended, first⟩ := least
  refine attempt_eq policy operation pause (Nat.zero_le last) ?_ (fun n _ lt => ?_) ?_
  · rw [Nat.zero_add]
    exact first (Or.inr rfl)
  · rw [← Bool.not_eq_false]
    exact fun done => Nat.not_lt.mpr (first (Or.inl done)) lt
  · rw [Nat.zero_add]
    exact ended

end Last

/-- What happens while an operation is tried. -/
inductive Event where
  | call
  /-- A wait of so many milliseconds. -/
  | wait (ms : Nat)
  deriving DecidableEq, Repr

/-- An operation whose calls have the given results, one after the other. -/
def answering (results : Nat → Except StoreError α) (events : List Event) :
    Outcome (List Event) α :=
  (results (events.count .call), events ++ [.call])

def waiting (ms : Nat) (events : List Event) : List Event := events ++ [.wait ms]

variable (policy) in
/-- So many calls, each with the wait for the next one. -/
def waits (n : Nat) : List Event :=
  (List.range n).flatMap fun retry => [.call, .wait (policy.backoff retry)]

theorem waits_succ (n : Nat) :
    policy.waits (n + 1) = policy.waits n ++ [.call, .wait (policy.backoff n)] := by
  simp [waits, List.range_succ]

theorem count_waits (n : Nat) : (policy.waits n).count .call = n := by
  induction n with
  | zero => rfl
  | succ n ih => simp [waits_succ, ih]

theorem before_answering (results : Nat → Except StoreError α) (n : Nat) :
    policy.before (answering results) waiting [] n = policy.waits n := by
  induction n with
  | zero => rfl
  | succ n ih => simp [before, ih, answering, waiting, waits_succ]

theorem run_answering {results : Nat → Except StoreError α} {last : Nat}
    (least : IsLeast {n | transient (results n) = false ∨ n = policy.maxRetries} last) :
    policy.run (answering results) [] waiting =
      ⟨reported last (results last), policy.waits last ++ [.call], last + 1⟩ := by
  have result (n : Nat) :
      (answering results (policy.before (answering results) waiting [] n)).1 = results n := by
    rw [before_answering, answering, count_waits]
  have least' : IsLeast {n | transient
      (answering results (policy.before (answering results) waiting [] n)).1 = false ∨
        n = policy.maxRetries} last := by
    simpa only [result] using least
  rw [run_eq policy (answering results) waiting least', result, before_answering]
  rfl

theorem run_transient {error : StoreError} (again : error.isTransient = true) :
    policy.run (answering fun _ => .error error : List Event → Outcome (List Event) α)
      [] waiting =
      ⟨.error (.retriesExhausted (counted (policy.maxRetries + 1)) error),
        policy.waits policy.maxRetries ++ [.call], policy.maxRetries + 1⟩ := by
  have least : IsLeast {n : Nat | transient (.error error : Except StoreError α) = false ∨
      n = policy.maxRetries} policy.maxRetries := by
    refine ⟨Or.inr rfl, fun n mem => ?_⟩
    rcases mem with final | last
    · rw [transient, again] at final
      cases final
    · exact last.ge
  rw [run_answering least]
  simp [reported, again]

/-- For every sequence of results, the operation is called until it succeeds, fails for good or
used up its retries. Before each retry stands the wait that is due. The result of the last call
is reported; if it calls for another attempt, then with the number of calls, unless these are
one too many for a word. -/
theorem run_accounts (policy : RetryPolicy) (word : policy.maxRetries < UInt32.size)
    (results : Nat → Except StoreError α) :
    let tried := policy.run (answering results) [] waiting
    ∃ last, IsLeast {n | transient (results n) = false ∨ n = policy.maxRetries} last ∧
      tried.calls = last + 1 ∧
      tried.state = ((List.range last).flatMap fun retry =>
        [.call, .wait (policy.backoff retry)]) ++
        [.call] ∧
      (∀ value, results last = .ok value → tried.result = .ok value) ∧
      (∀ error, results last = .error error → error.isTransient = false →
        tried.result = .error error) ∧
      ∀ error, results last = .error error → error.isTransient = true →
        last = policy.maxRetries ∧ tried.result = .error (.retriesExhausted
          (if policy.maxRetries = UInt32.size - 1 then 0 else tried.calls) error) := by
  have ends : ∃ n, transient (results n) = false ∨ n = policy.maxRetries := ⟨_, Or.inr rfl⟩
  obtain ⟨last, least⟩ : ∃ last,
      IsLeast {n | transient (results n) = false ∨ n = policy.maxRetries} last :=
    ⟨Nat.find ends, Nat.find_spec ends, fun n mem => Nat.find_min' ends mem⟩
  refine ⟨last, least, ?_⟩
  rw [run_answering least]
  refine ⟨rfl, rfl, fun value ok => ?_, fun error failed final =>
    ?_, fun error failed again => ?_⟩
  · simp [reported, ok]
  · simp [reported, failed, final]
  · have exhausted : last = policy.maxRetries :=
      least.1.resolve_left (by simp [failed, transient, again])
    refine ⟨exhausted, ?_⟩
    have attempts : counted (last + 1) =
        if policy.maxRetries = UInt32.size - 1 then 0 else last + 1 := by
      have size : UInt32.size = 4294967296 := rfl
      rw [size] at word
      rw [counted, exhausted, size]
      split <;> omega
    simp [reported, failed, again, attempts]

/-- A second call that succeeds is the last one, though another retry is left. -/
theorem run_accounts_of_success :
    let policy : RetryPolicy := { maxRetries := 2 }
    let results (n : Nat) : Except StoreError Nat :=
      if n = 0 then .error (.unavailable "busy") else .ok n
    let tried := policy.run (answering results) [] waiting
    policy.maxRetries < UInt32.size ∧ tried.calls = 2 ∧
      tried.state = [.call, .wait 300, .call] ∧ tried.result = .ok 1 := by
  intro policy results tried
  have word : policy.maxRetries < UInt32.size := by decide
  obtain ⟨last, least, calls, events, success, -⟩ := run_accounts policy word results
  have second : IsLeast {n | transient (results n) = false ∨ n = policy.maxRetries} 1 := by
    refine ⟨Or.inl rfl, fun n mem => Nat.one_le_iff_ne_zero.mpr ?_⟩
    rintro rfl
    rcases mem with final | last
    · cases final
    · cases last
  obtain rfl := least.unique second
  exact ⟨word, calls, events, success 1 rfl⟩

/-- With as many retries as a word can count, an operation that always calls for another attempt is
called once more than a word can count, and no attempt is reported. -/
theorem attempts_exceed_word :
    let policy : RetryPolicy := ⟨4294967295, 0, 0⟩
    let results (_ : Nat) : Except StoreError Unit := .error (.unavailable "busy")
    let tried := policy.run (answering results) [] waiting
    policy.maxRetries < UInt32.size ∧ tried.calls = 4294967296 ∧
      tried.result = .error (.retriesExhausted 0 (.unavailable "busy")) := by
  intro policy results tried
  have wraps : counted (policy.maxRetries + 1) = 0 := by decide
  have ran : tried = ⟨.error (.retriesExhausted 0 (.unavailable "busy")),
      policy.waits policy.maxRetries ++ [.call], policy.maxRetries + 1⟩ := by
    rw [← wraps]
    exact run_transient rfl
  rw [ran]
  exact ⟨by decide, rfl, rfl⟩

end BlastRadius.RetryPolicy
