import BlastRadius.Proofs.Store.Dialogues
import BlastRadius.Proofs.Store.Interruption

/-!
Conversations: calls, requests to open or close a level, and blocks that the store runs as
transactions, in any order and within each other, each depending on the answers to those before it.
Blocks need not close the levels that they open, and may close others.

What every request and every call of a store that tries again keeps holds in all states that a
conversation with it comes by, also in those within blocks, at each attempt.
-/

namespace BlastRadius

variable {σ τ α β : Type}

/-- A conversation that ends with an `α`. -/
inductive Conversation : Type → Type 1 where
  | done {α : Type} (value : α) : Conversation α
  | call {α : Type} (q : Call) (next : Except StoreError q.Reply → Conversation α) :
      Conversation α
  | control {α : Type} (request : Control) (next : Except StoreError Unit → Conversation α) :
      Conversation α
  /-- Leaves it to the store how a block is run as one transaction. -/
  | atomically {α β : Type} (body : Conversation (Except StoreError β))
      (next : Except StoreError β → Conversation α) : Conversation α

def Conversation.run (store : Store σ) : {α : Type} → Conversation α → σ → α × σ
  | _, done value, s => (value, s)
  | _, call q next, s => (next (store.call q s).1).run store (store.call q s).2
  | _, control request next, s =>
      (next (store.control request s).1).run store (store.control request s).2
  | _, atomically body next, s =>
      let answered := store.atomically (fun s => body.run store s) s
      (next answered.1).run store answered.2

/-- The states in which an operation is called while it is tried, with so many retries left. -/
inductive RetryPolicy.CalledIn (operation : τ → Outcome τ α) : Nat → τ → τ → Prop where
  | first (left : Nat) (t : τ) : CalledIn operation left t t
  | again {left : Nat} {t u : τ} : transient (operation t).1 = true →
      CalledIn operation left (operation t).2 u → CalledIn operation (left + 1) t u

/-- What a store that tries again makes of a block: the operation of each attempt. -/
def Conversation.attempt (policy : RetryPolicy) (front : Store τ)
    (body : Conversation (Except StoreError β)) : Retrying τ → Outcome (Retrying τ) β :=
  Store.transaction (Retrying.control front) fun t => body.run (Retrying.store policy front) t

/-- The states that a conversation with a store that tries again comes by: the first one, those
after each call, request and block, and in each attempt at a block that in which it starts, those
within the block, and that between a commit that fails and the rollback. -/
inductive Conversation.Visits (policy : RetryPolicy) (front : Store τ) :
    {α : Type} → Conversation α → Retrying τ → Retrying τ → Prop where
  | here {α : Type} (d : Conversation α) (t : Retrying τ) : Visits policy front d t t
  | call {α : Type} {q : Call} {next : Except StoreError q.Reply → Conversation α}
      {answer : Except StoreError q.Reply} {t t' u : Retrying τ} :
      Retrying.call policy front q t = (answer, t') →
      Visits policy front (next answer) t' u → Visits policy front (.call q next) t u
  | control {α : Type} {request : Control} {next : Except StoreError Unit → Conversation α}
      {answer : Except StoreError Unit} {t t' u : Retrying τ} :
      Retrying.control front request t = (answer, t') →
      Visits policy front (next answer) t' u → Visits policy front (.control request next) t u
  | attempting {α β : Type} {body : Conversation (Except StoreError β)}
      {next : Except StoreError β → Conversation α} {t u : Retrying τ} :
      RetryPolicy.CalledIn (attempt policy front body)
        (if t.depth = 0 then policy.maxRetries else 0)
        t u → Visits policy front (.atomically body next) t u
  | within {α β : Type} {body : Conversation (Except StoreError β)}
      {next : Except StoreError β → Conversation α} {t t₀ t₁ u : Retrying τ} :
      RetryPolicy.CalledIn (attempt policy front body)
        (if t.depth = 0 then policy.maxRetries else 0)
        t t₀ →
      Retrying.control front .begin t₀ = (.ok (), t₁) →
      Visits policy front body t₁ u → Visits policy front (.atomically body next) t u
  | uncommitted {α β : Type} {body : Conversation (Except StoreError β)}
      {next : Except StoreError β → Conversation α} {value : β} {error : StoreError}
      {t t₀ t₁ t₂ u : Retrying τ} :
      RetryPolicy.CalledIn (attempt policy front body)
        (if t.depth = 0 then policy.maxRetries else 0)
        t t₀ →
      Retrying.control front .begin t₀ = (.ok (), t₁) →
      body.run (Retrying.store policy front) t₁ = (.ok value, t₂) →
      Retrying.control front .commit t₂ = (.error error, u) →
      Visits policy front (.atomically body next) t u
  | after {α β : Type} {body : Conversation (Except StoreError β)}
      {next : Except StoreError β → Conversation α} {answer : Except StoreError β}
      {t t' u : Retrying τ} :
      Retrying.atomically policy front (fun t => body.run (Retrying.store policy front) t) t =
        (answer, t') →
      Visits policy front (next answer) t' u → Visits policy front (.atomically body next) t u

theorem RetryPolicy.CalledIn.keeps {P : τ → Prop} {operation : τ → Outcome τ α}
    {left : Nat} {t u : τ}
    (each : ∀ t, P t → P (operation t).2) (called : CalledIn operation left t u)
    (holds : P t) : P u := by
  induction called with
  | first left t => exact holds
  | again _ _ ih => exact ih (each _ holds)

namespace Conversation

variable {policy : RetryPolicy} {front : Store τ} {P : Retrying τ → Prop} {t u : Retrying τ}

section Keeping

variable (control : ∀ request t, P t → P (Retrying.control front request t).2)
  (call : ∀ q t, P t → P (Retrying.call policy front q t).2)
include control call

theorem run_keeps (d : Conversation α) {t : Retrying τ} (holds : P t) :
    P (d.run (Retrying.store policy front) t).2 := by
  induction d generalizing t with
  | done value => exact holds
  | call q next ih => exact ih _ (call q t holds)
  | control request next ih => exact ih _ (control request t holds)
  | atomically body next ihBody ih =>
      apply ih
      exact Retrying.atomically_keeps (R := fun t t' => P t → P t')
        (fun first second holds => second (first holds)) policy
        (fun t holds => Store.transaction_keeps control ihBody holds) t holds

theorem attempt_keeps {body : Conversation (Except StoreError β)} {left : Nat}
    (called : RetryPolicy.CalledIn (attempt policy front body) left t u) (holds : P t) : P u :=
  called.keeps (fun _ holds => Store.transaction_keeps control (run_keeps control call body) holds)
    holds

theorem begun_keeps {body : Conversation (Except StoreError β)} {left : Nat} {t₀ : Retrying τ}
    (called : RetryPolicy.CalledIn (attempt policy front body) left t t₀)
    (begun : Retrying.control front .begin t₀ = (.ok (), u)) (holds : P t) : P u := by
  have opened := control .begin t₀ (attempt_keeps control call called holds)
  rwa [begun] at opened

/-- What every request and every call keeps holds in all states that are visited. -/
theorem Visits.keeps {d : Conversation α} (visits : d.Visits policy front t u) (holds : P t) :
    P u := by
  induction visits with
  | here d t => exact holds
  | @call _ q next answer t t' u answered _ ih =>
      have kept := call q t holds
      rw [answered] at kept
      exact ih kept
  | @control _ request next answer t t' u answered _ ih =>
      have kept := control request t holds
      rw [answered] at kept
      exact ih kept
  | attempting called => exact attempt_keeps control call called holds
  | within called begun _ ih => exact ih (begun_keeps control call called begun holds)
  | @uncommitted _ _ body _ _ _ _ _ _ _ _ called begun ran failed =>
      have opened := begun_keeps control call called begun holds
      have kept := run_keeps control call body opened
      rw [ran] at kept
      have refused := control .commit _ kept
      rwa [failed] at refused
  | @after _ _ body next answer t t' u answered _ ih =>
      have kept := run_keeps control call (.atomically body .done) holds
      change P (Retrying.atomically policy front _ t).2 at kept
      rw [answered] at kept
      exact ih kept

end Keeping

theorem visits_run (d : Conversation α) (t : Retrying τ) :
    d.Visits policy front t (d.run (Retrying.store policy front) t).2 := by
  induction d generalizing t with
  | done value => exact .here _ t
  | call q next ih => exact .call rfl (ih _ _)
  | control request next ih => exact .control rfl (ih _ _)
  | atomically body next _ ih => exact .after rfl (ih _ _)

end Conversation

end BlastRadius
