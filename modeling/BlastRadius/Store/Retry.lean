import BlastRadius.Json.Decode
import BlastRadius.Json.Value
import BlastRadius.Store.Basic

/-!
Further attempts after transient failures, with waits that double up to a bound.

A store that retries repeats a single call outside a transaction, and a whole transaction in place
of its calls. Inside a transaction no single call is repeated.
-/

namespace BlastRadius

/-- How often to try again, and how long to wait. -/
structure RetryPolicy where
  /-- The attempts after the first. -/
  maxRetries : Nat := 3
  /-- The wait before the first of them, in milliseconds. -/
  initialBackoffMs : Nat := 300
  /-- The longest wait, in milliseconds. -/
  maxBackoffMs : Nat := 5000
  deriving DecidableEq, Repr

/-- The result of an operation that was tried, and what it took. -/
structure Attempts (σ α : Type) where
  result : Except StoreError α
  state : σ
  /-- How often the operation was called. -/
  calls : Nat

namespace RetryPolicy

def never : RetryPolicy := { maxRetries := 0 }

open Json (Decoder RecordReader)

def toJson (policy : RetryPolicy) : Json :=
  .obj [("max_retries", .num policy.maxRetries),
    ("initial_backoff_ms", .num policy.initialBackoffMs),
    ("max_backoff_ms", .num policy.maxBackoffMs)]

def decode : Decoder RetryPolicy :=
  let usual : RetryPolicy := {}
  RecordReader.decode <|
    ((RecordReader.fieldOr "max_retries" (Decoder.natBelow UInt32.size) usual.maxRetries).and <|
      (RecordReader.fieldOr "initial_backoff_ms" (Decoder.natBelow UInt64.size)
        usual.initialBackoffMs).and
      (RecordReader.fieldOr "max_backoff_ms" (Decoder.natBelow UInt64.size) usual.maxBackoffMs)).map
        fun (maxRetries, initialBackoffMs, maxBackoffMs) =>
          ⟨maxRetries, initialBackoffMs, maxBackoffMs⟩

def wordMax : Nat := UInt64.size - 1

/-- The power of two that a wait is multiplied by, as a 64-bit word: the greatest word stands for
the powers that do not fit. -/
def factor (retry : Nat) : Nat :=
  if retry < 64 then Nat.pow 2 retry else wordMax

/-- The wait before a retry, counted from zero. The product is cut off at the greatest word. -/
def backoff (policy : RetryPolicy) (retry : Nat) : Nat :=
  min (min (policy.initialBackoffMs * factor retry) wordMax) policy.maxBackoffMs

/-- A count of attempts. It is kept in a 32-bit word, which starts again at zero. -/
def counted (attempts : Nat) : Nat := attempts % UInt32.size

variable {σ α : Type}

/-- Nothing happens to a state during a wait. -/
def idle (_ : Nat) (state : σ) : σ := state

/-- Tries an operation after `retry` retries, with `left` more to go. Between two calls stands the
wait before the second of them; `pause` is what a wait does to the state. -/
def attempt (policy : RetryPolicy) (operation : σ → Outcome σ α) (pause : Nat → σ → σ) :
    (left retry : Nat) → σ → Attempts σ α
  | left, retry, state =>
      match operation state with
      | (.ok value, state) => ⟨.ok value, state, retry + 1⟩
      | (.error error, state) =>
          if error.isTransient then
            match left with
            | 0 => ⟨.error (.retriesExhausted (counted (retry + 1)) error), state, retry + 1⟩
            | left + 1 =>
                attempt policy operation pause left (retry + 1) (pause (policy.backoff retry) state)
          else ⟨.error error, state, retry + 1⟩

/-- Tries an operation until it succeeds, fails for good or used up its retries. -/
def run (policy : RetryPolicy) (operation : σ → Outcome σ α) (state : σ)
    (pause : Nat → σ → σ := idle) : Attempts σ α :=
  policy.attempt operation pause policy.maxRetries 0 state

end RetryPolicy

/-- The state of a store together with the number of transaction levels opened through it. -/
structure Retrying (σ : Type) where
  inner : σ
  depth : Nat := 0
  deriving DecidableEq, Repr

namespace Retrying

variable {σ α : Type}

/-- Opens or closes a level. A level that was to be rolled back counts as closed even if the
store behind fails. -/
def control (store : Store σ) (request : Control) (state : Retrying σ) :
    Outcome (Retrying σ) Unit :=
  match request, store.control request state.inner with
  | .begin, (.ok _, inner) => (.ok (), ⟨inner, state.depth + 1⟩)
  | .commit, (.ok _, inner) => (.ok (), ⟨inner, state.depth - 1⟩)
  | .begin, (.error error, inner) | .commit, (.error error, inner) =>
      (.error error, ⟨inner, state.depth⟩)
  | .rollback, (result, inner) => (result, ⟨inner, state.depth - 1⟩)

/-- Answers a call, with further attempts if no level is open. -/
def call (policy : RetryPolicy) (store : Store σ) (c : Call) (state : Retrying σ) :
    Outcome (Retrying σ) c.Reply :=
  if state.depth = 0 then
    let tried := policy.run (store.call c) state.inner
    (tried.result, ⟨tried.state, state.depth⟩)
  else
    let answered := store.call c state.inner
    (answered.1, ⟨answered.2, state.depth⟩)

/-- Runs a block as a transaction, with further attempts at the whole of it if no level is open. -/
def atomically (policy : RetryPolicy) (store : Store σ)
    (body : Retrying σ → Outcome (Retrying σ) α)
    (state : Retrying σ) : Outcome (Retrying σ) α :=
  if state.depth = 0 then
    let tried := policy.run (Store.transaction (control store) body) state
    (tried.result, tried.state)
  else Store.transaction (control store) body state

/-- The store that tries again as a policy says. -/
def store (policy : RetryPolicy) (inner : Store σ) : Store (Retrying σ) where
  control := control inner
  call := call policy inner
  atomically body := atomically policy inner body

end Retrying

end BlastRadius
