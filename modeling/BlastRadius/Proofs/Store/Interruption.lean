import BlastRadius.Proofs.Store.Keeping
import BlastRadius.Proofs.Store.Levels
import BlastRadius.Proofs.Store.Scripted
import BlastRadius.Store.Retry

/-!
Programs on stores whose requests may fail. What every call of a program keeps is kept by the whole
program, wherever it is cut off: a block that fails is rolled back, and a request that fails has no
effect. Attempts that are repeated change nothing in this.
-/

namespace BlastRadius

variable {σ τ α β : Type}

/-- A relation between states that is kept by calls that are as `P` says and by
blocks whose runs keep it. -/
structure Store.Respects (store : Store τ) (P : Call → Prop) (R : τ → τ → Prop) :
    Prop where
  refl (t : τ) : R t t
  trans {a b c : τ} : R a b → R b c → R a c
  call {q : Call} (t : τ) : P q → R t (store.call q t).2
  block {β : Type} {body : τ → Outcome τ β} (t : τ) :
    (∀ t, R t (body t).2) → R t (store.atomically body t).2

theorem Store.Respects.run {store : Store τ} {P : Call → Prop} {R : τ → τ → Prop}
    (respects : store.Respects P R) {p : Program α} (only : p.Only P) (t : τ) :
    R t (p.run store t).2 := by
  induction p generalizing t with
  | done value => exact respects.refl t
  | call q next ih => exact respects.trans (respects.call t only.1) (ih _ (only.2 _) _)
  | atomically body next ihBody ih =>
      exact respects.trans (respects.block t fun t => ihBody only.1 t) (ih _ (only.2 _) _)

theorem Program.only_true (p : Program α) : p.Only fun _ => True := by
  induction p with
  | done value => trivial
  | call q next ih => exact ⟨trivial, ih⟩
  | atomically body next ihBody ih => exact ⟨ihBody, ih⟩

/-- Whether a result is a failure worth another attempt. -/
def transient : Except StoreError α → Bool
  | .error error => error.isTransient
  | .ok _ => false

/-- What attempts come to, however many there were. -/
def Attempts.outcome (tried : Attempts τ α) : Outcome τ α := (tried.result, tried.state)

namespace RetryPolicy

variable {operation : τ → Outcome τ α} {t : τ}

/-- What is reported when the call after so many retries was the last one. -/
def reported (retry : Nat) : Except StoreError α → Except StoreError α
  | .ok value => .ok value
  | .error error =>
      if error.isTransient then .error (.retriesExhausted (counted (retry + 1)) error)
      else .error error

theorem reported_final {result : Except StoreError α} (final : transient result = false)
    (retry : Nat) : reported retry result = result := by
  rcases result with error | value
  · rw [transient] at final
    simp [reported, final]
  · rfl

theorem reported_transient {result : Except StoreError α} (failed : transient result = true)
    (retry : Nat) : ∃ error, reported retry result = .error error := by
  rcases result with error | value
  · rw [transient] at failed
    exact ⟨_, if_pos failed⟩
  · cases failed

theorem attempt_last (policy : RetryPolicy) (pause : Nat → τ → τ) {left : Nat}
    (last : transient (operation t).1 = false ∨ left = 0) (retry : Nat) :
    policy.attempt operation pause left retry t =
      ⟨reported retry (operation t).1, (operation t).2, retry + 1⟩ := by
  rw [attempt]
  rcases ran : operation t with ⟨error | value, t'⟩
  · rw [ran] at last
    rcases again : error.isTransient with _ | _
    · simp [reported, again]
    · obtain rfl : left = 0 := last.resolve_left (by simp [transient, again])
      simp [reported, again]
  · rfl

theorem attempt_next (policy : RetryPolicy) (pause : Nat → τ → τ)
    (failed : transient (operation t).1 = true) (left retry : Nat) :
    policy.attempt operation pause (left + 1) retry t =
      policy.attempt operation pause left (retry + 1)
        (pause (policy.backoff retry) (operation t).2) := by
  rw [attempt]
  rcases ran : operation t with ⟨error | value, t'⟩
  · rw [ran, transient] at failed
    simp [failed]
  · rw [ran] at failed
    cases failed

theorem attempt_final (policy : RetryPolicy) (final : transient (operation t).1 = false)
    (left retry : Nat) : (policy.attempt operation idle left retry t).outcome = operation t := by
  rw [policy.attempt_last idle (Or.inl final), Attempts.outcome, reported_final final]

theorem attempt_again (policy : RetryPolicy) (failed : transient (operation t).1 = true)
    (left retry : Nat) : (policy.attempt operation idle (left + 1) retry t).outcome =
      (policy.attempt operation idle left (retry + 1) (operation t).2).outcome :=
  congrArg Attempts.outcome (policy.attempt_next idle failed left retry)

theorem attempt_exhausted (policy : RetryPolicy) (failed : transient (operation t).1 = true)
    (retry : Nat) :
    ∃ error, (policy.attempt operation idle 0 retry t).outcome =
      (.error error, (operation t).2) := by
  obtain ⟨error, report⟩ := reported_transient failed retry
  exact ⟨error, by rw [policy.attempt_last idle (Or.inr rfl), Attempts.outcome, report]⟩

theorem attempt_keeps {R : τ → τ → Prop} (trans : ∀ {a b c}, R a b → R b c → R a c)
    (policy : RetryPolicy) (keeps : ∀ t, R t (operation t).2) (left retry : Nat) (t : τ) :
    R t (policy.attempt operation idle left retry t).outcome.2 := by
  induction left generalizing t retry with
  | zero =>
      rcases again : transient (operation t).1 with _ | _
      · rw [policy.attempt_final again]
        exact keeps t
      · obtain ⟨_, last⟩ := policy.attempt_exhausted again retry
        rw [last]
        exact keeps t
  | succ left ih =>
      rcases again : transient (operation t).1 with _ | _
      · rw [policy.attempt_final again]
        exact keeps t
      · rw [policy.attempt_again again]
        exact trans (keeps t) (ih (retry + 1) _)

end RetryPolicy

theorem Retrying.atomically_keeps {front : Store τ} {R : Retrying τ → Retrying τ → Prop}
    (trans : ∀ {a b c}, R a b → R b c → R a c) (policy : RetryPolicy)
    {body : Retrying τ → Outcome (Retrying τ) β}
    (keeps : ∀ t, R t (Store.transaction (Retrying.control front) body t).2) (t : Retrying τ) :
    R t (Retrying.atomically policy front body t).2 := by
  rw [Retrying.atomically]
  split
  · exact RetryPolicy.attempt_keeps (R := R) trans policy keeps _ _ t
  · exact keeps t

theorem Store.Respects.retrying {front : Store τ} {P : Call → Prop} {R : τ → τ → Prop}
    (respects : front.Respects P R) (policy : RetryPolicy)
    (block : ∀ {β : Type} {body : Retrying τ → Outcome (Retrying τ) β} (t : Retrying τ),
      (∀ t, R t.inner (body t).2.inner) →
        R t.inner (Store.transaction (Retrying.control front) body t).2.inner) :
    (Retrying.store policy front).Respects P fun t t' => R t.inner t'.inner where
  refl t := respects.refl t.inner
  trans first second := respects.trans first second
  call {q} t allowed := by
    change R t.inner (Retrying.call policy front q t).2.inner
    rw [Retrying.call]
    split
    · exact RetryPolicy.attempt_keeps (R := R) respects.trans policy
        (fun t => respects.call t allowed) _ _ _
    · exact respects.call t.inner allowed
  block t keeps := Retrying.atomically_keeps (R := fun (t t' : Retrying τ) => R t.inner t'.inner)
    respects.trans policy (fun t => block t keeps) t

/-- Requests to a store in front of another one pass or fail without an effect,
and rollbacks pass. -/
structure Passes (front : Control → τ → Outcome τ Unit)
    (behind : Control → σ → Outcome σ Unit)
    (base : τ → σ) : Prop where
  forward (request : Control) (t : τ) : request ≠ .rollback → ∃ t',
    front request t = ((behind request (base t)).1, t') ∧
        base t' = (behind request (base t)).2 ∨
      ∃ error, front request t = (.error error, t') ∧ base t' = base t
  rollback (t : τ) : base (front .rollback t).2 = (behind .rollback (base t)).2

/-- A transaction in front either fails and leaves the state behind as it was, or begins, runs its
block and commits behind. -/
theorem Passes.transaction_cases {inner : Store σ} {opened : σ → List σ}
    (laws : inner.Transactional opened) {control : Control → τ → Outcome τ Unit}
    {base : τ → σ}
    (passes : Passes control inner.control base) {body : τ → Outcome τ β}
    (keeps : ∀ t, opened (base (body t).2) = opened (base t)) (t : τ) :
    (∃ error, (Store.transaction control body t).1 = .error error ∧
      base (Store.transaction control body t).2 = base t) ∨
    ∃ value t₁, (Store.transaction control body t).1 = .ok value ∧
      inner.control .begin (base t) = (.ok (), base t₁) ∧ (body t₁).1 = .ok value ∧
      inner.control .commit (base (body t₁).2) =
        (.ok (), base (Store.transaction control body t).2) := by
  rw [Store.transaction]
  obtain ⟨t₁, ⟨answer, base₁⟩ | ⟨error, answer, base₁⟩⟩ :=
    passes.forward .begin t (by decide)
  · rcases begun : inner.control .begin (base t) with ⟨error | ⟨⟩, s₁⟩
    · rw [begun] at answer base₁
      rw [answer]
      exact Or.inl ⟨error, rfl, base₁.trans (laws.begin_error begun)⟩
    · rw [begun] at answer base₁
      have level : opened (base t₁) = base t :: opened (base t) := base₁ ▸ laws.begin_ok begun
      have back {t' : τ} (still : opened (base t') = opened (base t₁)) :
          base (control .rollback t').2 = base t := by
        rw [passes.rollback, laws.rollback (still.trans level)]
      rw [answer]
      have still := keeps t₁
      rcases ran : body t₁ with ⟨error | value, t₂⟩
      · rw [ran] at still
        simp only [ran]
        exact Or.inl ⟨error, rfl, back still⟩
      · rw [ran] at still
        simp only [ran]
        obtain ⟨t₃, ⟨answer₃, base₃⟩ | ⟨error, answer₃, base₃⟩⟩ :=
          passes.forward .commit t₂ (by decide)
        · rcases committed : inner.control .commit (base t₂) with ⟨error | ⟨⟩, s₃⟩
          · rw [committed] at answer₃ base₃
            rw [answer₃]
            have open₃ := laws.commit_error (still.trans level) committed
            exact Or.inl ⟨error, rfl,
              back ((congrArg opened base₃).trans (open₃.trans still))⟩
          · rw [committed] at answer₃ base₃
            rw [answer₃]
            refine Or.inr ⟨value, t₁, rfl, by rw [show base t₁ = s₁ from base₁], ?_, ?_⟩
            · rw [ran]
            · rw [ran, committed, show base t₃ = s₃ from base₃]
        · rw [answer₃]
          exact Or.inl ⟨error, rfl, back ((congrArg opened base₃).trans still)⟩
  · rw [answer]
    exact Or.inl ⟨error, rfl, base₁⟩

theorem Passes.transaction_opened {inner : Store σ} {opened : σ → List σ}
    (laws : inner.Transactional opened) {control : Control → τ → Outcome τ Unit}
    {base : τ → σ}
    (passes : Passes control inner.control base) {body : τ → Outcome τ β}
    (keeps : ∀ t, opened (base (body t).2) = opened (base t)) (t : τ) :
    opened (base (Store.transaction control body t).2) = opened (base t) := by
  rcases passes.transaction_cases laws keeps t with
    ⟨_, _, same⟩ | ⟨_, t₁, _, begun, _, committed⟩
  · rw [same]
  · exact laws.commit_ok ((keeps t₁).trans (laws.begin_ok begun)) committed

/-- The same levels are open, and from a sound state one comes to a sound state with
related contents. -/
structure View.Keeps (view : View σ) (K : Contents → Contents → Prop) (s s' : σ) : Prop where
  opened : view.opened s' = view.opened s
  holds : view.sound s → view.sound s' ∧ K (view.holds s) (view.holds s')

section Fronts

variable {inner : Store σ} {view : View σ} {K : Contents → Contents → Prop} {base : τ → σ}
  {control : Control → τ → Outcome τ Unit}

theorem View.Keeps.refl (refl : ∀ c, K c c) (s : σ) : view.Keeps K s s :=
  ⟨rfl, fun sound => ⟨sound, refl _⟩⟩

theorem View.Keeps.trans (trans : ∀ {a b c}, K a b → K b c → K a c) {s₁ s₂ s₃ : σ}
    (first : view.Keeps K s₁ s₂) (second : view.Keeps K s₂ s₃) :
      view.Keeps K s₁ s₃ where
  opened := second.opened.trans first.opened
  holds sound := by
    obtain ⟨sound₂, kept⟩ := first.holds sound
    obtain ⟨sound₃, kept'⟩ := second.holds sound₂
    exact ⟨sound₃, trans kept kept'⟩

theorem Store.Faithful.transaction_keeps (faithful : inner.Faithful view) (refl : ∀ c, K c c)
    (passes : Passes control inner.control base) {body : τ → Outcome τ β}
    (keeps : ∀ t, view.Keeps K (base t) (base (body t).2)) (t : τ) :
    view.Keeps K (base t) (base (Store.transaction control body t).2) := by
  rcases passes.transaction_cases faithful.toTransactional (fun t => (keeps t).opened) t with
    ⟨_, _, same⟩ | ⟨_, t₁, _, begun, _, committed⟩
  · rw [same]
    exact .refl refl _
  · have level := faithful.begin_ok begun
    have still := (keeps t₁).opened.trans level
    refine ⟨faithful.commit_ok still committed, fun sound => ?_⟩
    obtain ⟨_, begun', holds₁, sound₁, _⟩ := faithful.begins sound
    cases begun.symm.trans begun'
    obtain ⟨sound₂, kept⟩ := (keeps t₁).holds sound₁
    obtain ⟨_, committed', holds₃, sound₃, _⟩ := faithful.commits sound₂ still
    cases committed.symm.trans committed'
    rw [holds₁] at kept
    exact ⟨sound₃, holds₃ ▸ kept⟩

end Fronts

/-- A relation between contents that is kept by calls that are as `P` says, none of which is for a
new node. -/
structure KeptByCalls (P : Call → Prop) (K : Contents → Contents → Prop) : Prop where
  refl (c : Contents) : K c c
  trans {a b c : Contents} : K a b → K b c → K a c
  old {q : Call} : P q → q.inserts = false
  steps {q : Call} : P q → CallKeeps Contents.Step K q

section Stacks

variable {inner : Store σ} {view : View σ} {P : Call → Prop}
    {K : Contents → Contents → Prop}

theorem Scripted.control_forward (inner : Store σ) {request : Control}
    (forward : request ≠ .rollback) :
    (Scripted.store inner).control request = Scripted.attempt (inner.control request) := by
  cases request with
  | rollback => exact absurd rfl forward
  | _ => rfl

theorem Scripted.passes (inner : Store σ) :
    Passes (Scripted.store inner).control inner.control Scripted.inner where
  forward request t forward := by
    rw [Scripted.control_forward inner forward]
    refine ⟨(Scripted.attempt (inner.control request) t).2, ?_⟩
    rcases Scripted.attempt_cases (inner.control request) t with
      ⟨answer, state⟩ | ⟨error, answer, state⟩
    · exact Or.inl ⟨Prod.ext answer rfl, state⟩
    · exact Or.inr ⟨error, Prod.ext answer rfl, state⟩
  rollback _ := rfl

theorem Retrying.control_inner (front : Store τ) (request : Control) (t : Retrying τ) :
    (Retrying.control front request t).1 = (front.control request t.inner).1 ∧
      (Retrying.control front request t).2.inner = (front.control request t.inner).2 := by
  rcases done : front.control request t.inner with ⟨error | ⟨⟩, t'⟩
  all_goals cases request <;> simp only [Retrying.control, done, and_self]

theorem Retrying.passes {front : Store τ} {base : τ → σ}
    (passes : Passes front.control inner.control base) :
    Passes (Retrying.control front) inner.control fun t => base t.inner where
  forward request t forward := by
    obtain ⟨answer, same⟩ := Retrying.control_inner front request t
    refine ⟨(Retrying.control front request t).2, ?_⟩
    obtain ⟨t', ⟨passed, state⟩ | ⟨error, failed, state⟩⟩ :=
      passes.forward request t.inner forward
    · rw [passed] at answer same
      exact Or.inl ⟨Prod.ext answer rfl, (congrArg base same).trans state⟩
    · rw [failed] at answer same
      exact Or.inr ⟨error, Prod.ext answer rfl, (congrArg base same).trans state⟩
  rollback t := passes.rollback t.inner

section Levels

variable {opened : σ → List σ} (laws : inner.Transactional opened)
include laws

theorem Scripted.keeps_opened :
    (Scripted.store inner).Respects (fun _ => True) fun t t' =>
      opened t'.inner = opened t.inner where
  refl _ := rfl
  trans first second := second.trans first
  call {q} t _ := by
    rcases Scripted.attempt_cases (inner.call q) t with ⟨_, state⟩ | ⟨_, _, state⟩
    · exact (congrArg opened state).trans (laws.call_opened q t.inner)
    · exact congrArg opened state
  block t keeps := (Scripted.passes inner).transaction_opened laws keeps t

theorem Retrying.keeps_opened (policy : RetryPolicy) :
    (Retrying.store policy (Scripted.store inner)).Respects (fun _ => True)
      fun t t' => opened t'.inner.inner = opened t.inner.inner :=
  (Scripted.keeps_opened laws).retrying policy fun t keeps =>
    (Retrying.passes (Scripted.passes inner)).transaction_opened laws keeps t

end Levels

theorem Retrying.control_counted (front : Store τ) :
    Control.Counted (Retrying.control front) Retrying.depth := by
  intro request t
  obtain ⟨inner, depth⟩ := t
  rcases done : front.control request inner with ⟨error | _, inner'⟩
  all_goals
    obtain _ | level := depth
    all_goals cases request <;> simp only [Retrying.control, done] <;> rfl

theorem Retrying.depth_of_begin {front : Store τ} {t t' : Retrying τ}
    (begun : Retrying.control front .begin t = (.ok (), t')) : t'.depth ≠ 0 := by
  have counted := Retrying.control_counted front .begin t
  rw [begun] at counted
  have opened : t'.depth = t.depth + 1 := counted
  rw [opened]
  exact Nat.succ_ne_zero _

theorem Retrying.keeps_depth (policy : RetryPolicy) (front : Store τ) :
    (Retrying.store policy front).Respects (fun _ => True) fun t t' => t'.depth = t.depth where
  refl _ := rfl
  trans first second := second.trans first
  call {q} t _ := by
    change (Retrying.call policy front q t).2.depth = t.depth
    rw [Retrying.call]
    split <;> rfl
  block t keeps := Retrying.atomically_keeps (R := fun (t t' : Retrying τ) => t'.depth = t.depth)
    (fun first second => second.trans first) policy
      ((Retrying.control_counted front).transaction keeps) t

variable (faithful : inner.Faithful view) (kept : KeptByCalls P K)
include faithful kept

theorem Scripted.call_keeps {q : Call} (allowed : P q) (t : Scripted σ) :
    view.Keeps K t.inner ((Scripted.store inner).call q t).2.inner := by
  change view.Keeps K t.inner (Scripted.attempt (inner.call q) t).2.inner
  rcases Scripted.attempt_cases (inner.call q) t with ⟨_, state⟩ | ⟨_, _, state⟩
  · rw [state]
    refine ⟨faithful.call_opened q t.inner, fun sound => ?_⟩
    have room : q.inserts → view.level t.inner < NodeId.count := fun inserts => by
      rw [kept.old allowed] at inserts
      cases inserts
    obtain ⟨stepped, sound', _⟩ := faithful.answers q sound room
    exact ⟨sound', kept.steps allowed _ _ _ stepped⟩
  · rw [state]
    exact .refl kept.refl _

theorem Scripted.respects : (Scripted.store inner).Respects P
    fun t t' => view.Keeps K t.inner t'.inner where
  refl _ := .refl kept.refl _
  trans first second := View.Keeps.trans (K := K) kept.trans first second
  call t allowed := Scripted.call_keeps faithful kept allowed t
  block t keeps := faithful.transaction_keeps kept.refl (Scripted.passes inner) keeps t

theorem Retrying.respects (policy : RetryPolicy) :
    (Retrying.store policy (Scripted.store inner)).Respects P
      fun t t' => view.Keeps K t.inner.inner t'.inner.inner :=
  (Scripted.respects faithful kept).retrying policy fun t keeps =>
    faithful.transaction_keeps kept.refl (Retrying.passes (Scripted.passes inner)) keeps t

end Stacks

end BlastRadius
