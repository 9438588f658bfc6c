import BlastRadius.Proofs.Store.Interruption
import BlastRadius.Proofs.Store.Medium

/-!
Programs that leave no trace on a store whose requests may fail: those that only read, and blocks
that fail or turn out to change nothing. A block that is tried again leaves no trace either, as
every failed attempt is undone.
-/

namespace BlastRadius

variable {σ τ α β ε : Type}

/-- Whenever the answer is as `P` says, the state behind is as before. -/
def Leaves (base : τ → σ) (P : α → Prop) (operation : τ → α × τ) : Prop :=
  ∀ t, P (operation t).1 → base (operation t).2 = base t

/-- An error, or a value as `P` says. -/
def FailsOr (P : β → Prop) (result : Except ε β) : Prop :=
  ∀ value, result = .ok value → P value

theorem failsOr_error (P : β → Prop) (error : ε) : FailsOr P (.error error) := nofun

/-- Reading leaves no trace, nor does a level that is committed as it was begun. -/
structure Store.Tidy (store : Store σ) : Prop where
  read {q : Call} (s : σ) : q.reads = true → (store.call q s).2 = s
  closed {s s₁ s₂ : σ} : store.control .begin s = (.ok (), s₁) →
    store.control .commit s₁ = (.ok (), s₂) → s₂ = s

/-- What is done in front of a store leaves no trace behind if it reads, or if it is a block that
fails or changes nothing. -/
structure Store.Shelters (front : Store τ) (base : τ → σ) : Prop where
  read {q : Call} (t : τ) : q.reads = true → base (front.call q t).2 = base t
  atomically {β : Type} {P : β → Prop} {body : Program (Except StoreError β)} :
    Leaves base (fun result => ∃ value, result = .ok value ∧ P value) (body.run front) →
      Leaves base (FailsOr P) (front.atomically (body.run front))

theorem Passes.transaction_leaves {inner : Store σ} {opened : σ → List σ}
    (laws : inner.Transactional opened) (tidy : inner.Tidy)
    {control : Control → τ → Outcome τ Unit}
    {base : τ → σ} (passes : Passes control inner.control base) {body : τ → Outcome τ β}
    {P : β → Prop} (keeps : ∀ t, opened (base (body t).2) = opened (base t))
    (idle : Leaves base (fun result => ∃ value, result = .ok value ∧ P value) body) :
    Leaves base (FailsOr P) (Store.transaction control body) := by
  intro t ends
  rcases passes.transaction_cases laws keeps t with
    ⟨_, _, same⟩ | ⟨value, t₁, answer, begun, ran, committed⟩
  · exact same
  · have untouched := idle t₁ ⟨value, ran, ends value answer⟩
    rw [untouched] at committed
    exact tidy.closed begun committed

theorem RetryPolicy.attempt_leaves {base : τ → σ} {P : α → Prop} (policy : RetryPolicy)
    {operation : τ → Outcome τ α} (once : Leaves base (FailsOr P) operation) (left retry : Nat)
    (t : τ) : FailsOr P (policy.attempt operation RetryPolicy.idle left retry t).outcome.1 →
      base (policy.attempt operation RetryPolicy.idle left retry t).outcome.2 = base t := by
  have undone {t : τ} (failed : transient (operation t).1 = true) :
      base (operation t).2 = base t := by
    have first := once t
    rcases ran : operation t with ⟨error | value, t'⟩
    · rw [ran] at first
      exact first (failsOr_error P error)
    · rw [ran] at failed
      cases failed
  induction left generalizing t retry with
  | zero =>
      rcases again : transient (operation t).1 with _ | _
      · rw [policy.attempt_final again]
        exact once t
      · obtain ⟨_, last⟩ := policy.attempt_exhausted again retry
        rw [last]
        exact fun _ => undone again
  | succ left ih =>
      rcases again : transient (operation t).1 with _ | _
      · rw [policy.attempt_final again]
        exact once t
      · rw [policy.attempt_again again]
        intro ends
        exact (ih (retry + 1) _ ends).trans (undone again)

section Fronts

variable {inner : Store σ} {opened : σ → List σ} (laws : inner.Transactional opened)
  (tidy : inner.Tidy)
include laws tidy

theorem Scripted.shelters : (Scripted.store inner).Shelters Scripted.inner where
  read {q} t reads := by
    rcases Scripted.attempt_cases (inner.call q) t with ⟨_, state⟩ | ⟨_, _, state⟩
    · exact state.trans (tidy.read t.inner reads)
    · exact state
  atomically {_ _ body} idle := (Scripted.passes inner).transaction_leaves laws tidy
    (fun t => (Scripted.keeps_opened laws).run body.only_true t) idle

theorem Retrying.shelters (policy : RetryPolicy) :
    (Retrying.store policy (Scripted.store inner)).Shelters fun t => t.inner.inner where
  read {q} t reads := by
    have once (t : Scripted σ) := (Scripted.shelters laws tidy).read (q := q) t reads
    change (Retrying.call policy (Scripted.store inner) q t).2.inner.inner = t.inner.inner
    rw [Retrying.call]
    split
    · exact RetryPolicy.attempt_keeps (R := fun (t t' : Scripted σ) => t'.inner = t.inner)
        (fun first second => second.trans first) policy once _ _ _
    · exact once t.inner
  atomically {_ P body} idle := by
    have once := (Retrying.passes (Scripted.passes inner)).transaction_leaves laws tidy
      (fun t => (Retrying.keeps_opened laws policy).run body.only_true t) idle
    intro t
    change FailsOr P (Retrying.atomically policy _ _ t).1 →
      (Retrying.atomically policy _ _ t).2.inner.inner = _
    rw [Retrying.atomically]
    split
    · exact policy.attempt_leaves once _ _ t
    · exact once t

end Fronts

theorem Medium.tidy (medium : Medium) : medium.store.Tidy := by
  cases medium with
  | memory =>
      constructor
      · intro q s reads
        cases q <;> first | rfl | cases reads
      · intro s s₁ s₂ begun committed
        cases begun
        cases committed
        rfl
  | database =>
      constructor
      · intro q s reads
        cases q <;> first | rfl | cases reads
      · intro s s₁ s₂ begun committed
        cases begun
        cases committed
        rfl

theorem Medium.call_failed (medium : Medium) {q : Call} {s : medium.State} {error : StoreError}
    (failed : (medium.store.call q s).1 = .error error) : (medium.store.call q s).2 = s := by
  cases medium with
  | memory =>
      have changed {α : Type} {result : Except GraphError (α × DependencyGraph)}
          (failed : (Memory.change s result).1 = .error error) :
            (Memory.change s result).2 = s := by
        rcases result with error | value
        · rfl
        · cases failed
      cases q <;> first | rfl | exact changed failed
  | database =>
      have changed {α : Type} {result : Except StoreError (α × Tables)}
          (failed : (Database.change s result).1 = .error error) :
          (Database.change s result).2 = s := by
        rcases result with error | value
        · rfl
        · cases failed
      cases q <;> first | rfl | exact changed failed

theorem Medium.shelters (medium : Medium) : medium.store.Shelters id where
  read t reads := medium.tidy.read t reads
  atomically {_ P body} idle := by
    have laws := medium.faithful.toTransactional
    have keeps := laws.run_opened medium.faithful.once body
    intro t
    rw [medium.faithful.once]
    rcases laws.transaction_cases keeps t with
      ⟨error, failed⟩ | ⟨value, t₁, t₂, t₃, begun, ran, committed, _, answered⟩
    · rw [failed]
      exact fun _ => rfl
    · rw [answered]
      intro ends
      have untouched := idle t₁
      rw [ran] at untouched
      obtain rfl : t₂ = t₁ := untouched ⟨value, rfl, ends value rfl⟩
      exact medium.tidy.closed begun committed

/-- The steps of a program are calls that only read. -/
abbrev OnlyReads (p : ExceptT ε Program α) : Prop :=
  EachStep (fun q => q.reads = true) (fun _ _ => False) p

theorem onlyReads_call {q : Call} (reads : q.reads = true) : OnlyReads (StoreProgram.call q) :=
  .call reads

namespace Store.Shelters

variable {front : Store τ} {base : τ → σ} (shelters : front.Shelters base)
include shelters

theorem reading {p : Program α} (reads : p.Each (fun q => q.reads = true) fun _ _ => False)
    (t : τ) :
    base (p.run front t).2 = base t := by
  induction p generalizing t with
  | done value => rfl
  | call q next ih => exact (ih _ (reads.2 _) _).trans (shelters.read t reads.1)
  | atomically body next _ ih => exact absurd reads.1 id

theorem after_reading {p : ExceptT ε Program β} {next : β → ExceptT ε Program α}
    {P : Except ε α → Prop} (reads : OnlyReads p)
    (rest : ∀ value, Leaves base P ((next value).run.run front)) :
    Leaves base P ((p >>= next).run.run front) := by
  intro t
  have untouched := shelters.reading reads t
  rw [ExceptT.run_bind, Program.run_bind]
  rcases ran : p.run.run front t with ⟨error | value, t₁⟩
  · rw [ran] at untouched
    exact fun _ => untouched
  · rw [ran] at untouched
    intro ends
    exact (rest value t₁ ends).trans untouched

end Store.Shelters

end BlastRadius
