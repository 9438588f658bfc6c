import BlastRadius.Proofs.Store.Memory
import BlastRadius.Proofs.Store.Scripted
import BlastRadius.Session.Bench

/-!
A transaction that is tried again takes place once or not at all, whatever requests of the store
behind fail. Each attempt either has the outcome of the block without faults or is undone by the
rollback of its level, and then the next one starts from the same state.
-/

namespace BlastRadius

/-- The state of a store that retries on top of a count of the runs of a block and
of scripted faults. -/
abbrev Trial (σ : Type) := Retrying (Metered (Scripted σ))

namespace Trial

variable {σ α β : Type}

def base (t : Trial σ) : σ := (Retrying.inner t).inner.inner

def runs (t : Trial σ) : Nat := (Retrying.inner t).runs

/-- The state in which one more run has begun. -/
def counted (t : Trial σ) : Trial σ := ⟨⟨(Retrying.inner t).inner, t.runs + 1⟩, t.depth⟩

/-- The state before anything was requested or run. -/
def start (s : σ) (script : Nat → Option StoreError) : Trial σ :=
  ⟨⟨⟨s, script, 0⟩, 0⟩, 0⟩

/-- The store that retries, counts and fails as scripted. -/
def store (policy : RetryPolicy) (inner : Store σ) : Store (Trial σ) :=
  Retrying.store policy (Metered.store (Scripted.store inner))

/-- The store behind, which runs each block once. -/
def faultless (inner : Store σ) : Store σ := .plain inner.control inner.call

/-- An outcome leaves the levels as they were, runs the block at most so many times, and if it is a
success, it is the outcome without faults. -/
structure Follows (opened : σ → List σ) (count : Nat) (t : Trial σ) (o : Outcome (Trial σ) α)
    (p : Outcome σ α) : Prop where
  depth : o.2.depth = t.depth
  runs : o.2.runs ≤ t.runs + count
  levels : opened o.2.base = opened t.base
  ok : ∀ value, o.1 = .ok value → p = (.ok value, o.2.base)

variable {inner : Store σ} {opened : σ → List σ} {policy : RetryPolicy} {t : Trial σ}
    {count : Nat}

theorem attempt_cases (request : σ → Outcome σ β) (m : Metered (Scripted σ)) :
    ∃ m', m'.runs = m.runs ∧
      ((Metered.lift (Scripted.attempt request) m = ((request m.inner.inner).1, m') ∧
        m'.inner.inner = (request m.inner.inner).2) ∨
      ∃ error, Metered.lift (Scripted.attempt request) m = (.error error, m') ∧
        m'.inner.inner = m.inner.inner) := by
  refine ⟨(Metered.lift (Scripted.attempt request) m).2, rfl, ?_⟩
  rcases Scripted.attempt_cases request m.inner with ⟨answer, state⟩ |
    ⟨error, answer, state⟩
  · exact Or.inl ⟨Prod.ext answer rfl, state⟩
  · exact Or.inr ⟨error, Prod.ext answer rfl, state⟩

/-- The state after a call within a level: no level was opened or closed, and no block run. -/
structure Within (opened : σ → List σ) (t t' : Trial σ) : Prop where
  depth : t'.depth = t.depth
  runs : t'.runs = t.runs
  levels : opened t'.base = opened t.base

theorem Within.trans {t₁ t₂ : Trial σ} (first : Within opened t t₁)
    (second : Within opened t₁ t₂) :
    Within opened t t₂ :=
  ⟨second.depth.trans first.depth, second.runs.trans first.runs,
    second.levels.trans first.levels⟩

theorem Within.follows {t' : Trial σ} {p : Outcome σ β} (kept : Within opened t t')
    {answer : Except StoreError β} (ok : ∀ value, answer = .ok value →
      p = (.ok value, t'.base)) :
    Follows opened 0 t (answer, t') p :=
  ⟨kept.depth, kept.runs.le, kept.levels, ok⟩

theorem Follows.after {t' : Trial σ} {o : Outcome (Trial σ) β} {p : Outcome σ β}
    (follows : Follows opened 0 t' o p) (kept : Within opened t t') : Follows opened 0 t o p :=
  ⟨follows.depth.trans kept.depth, follows.runs.trans kept.runs.le,
    follows.levels.trans kept.levels, follows.ok⟩

variable (policy) in
theorem call_cases (laws : inner.Transactional opened) (within : t.depth ≠ 0) (q : Call) :
    ∃ t', Within opened t t' ∧
      (((store policy inner).call q t = ((inner.call q t.base).1, t') ∧
        t'.base = (inner.call q t.base).2) ∨
      ∃ error, (store policy inner).call q t = (.error error, t') ∧ t'.base = t.base) := by
  have single : (store policy inner).call q t =
      ((Metered.lift (Scripted.attempt (inner.call q)) (Retrying.inner t)).1,
        ⟨(Metered.lift (Scripted.attempt (inner.call q)) (Retrying.inner t)).2, t.depth⟩) := by
    change Retrying.call policy _ q t = _
    rw [Retrying.call, if_neg within]
    rfl
  obtain ⟨m', runs, ⟨answered, state⟩ | ⟨error, answered, state⟩⟩ :=
    attempt_cases (inner.call q) (Retrying.inner t)
  · have levels := (congrArg opened state).trans (laws.call_opened q t.base)
    exact ⟨⟨m', t.depth⟩, ⟨rfl, runs, levels⟩,
      Or.inl ⟨by rw [single, answered]; rfl, state⟩⟩
  · exact ⟨⟨m', t.depth⟩, ⟨rfl, runs, congrArg opened state⟩,
      Or.inr ⟨error, by rw [single, answered], state⟩⟩

theorem call_follows (laws : inner.Transactional opened) (within : t.depth ≠ 0) (q : Call) :
    Follows opened 0 t ((store policy inner).call q t) (inner.call q t.base) := by
  obtain ⟨t', kept, ⟨answered, state⟩ | ⟨error, answered, _⟩⟩ :=
    call_cases policy laws within q
  · rw [answered]
    exact kept.follows fun value ok => Prod.ext ok state.symm
  · rw [answered]
    exact kept.follows fun value ok => by cases ok

def control (inner : Store σ) (request : Control) : Trial σ → Outcome (Trial σ) Unit :=
  Retrying.control (Metered.store (Scripted.store inner)) request

theorem control_ok {request : Control} {m' : Metered (Scripted σ)} (t : Trial σ)
    (answered : (Metered.store (Scripted.store inner)).control request (Retrying.inner t) =
      (.ok (), m')) :
    control inner request t =
      (.ok (), ⟨m', if request = .begin then t.depth + 1 else t.depth - 1⟩) := by
  cases request <;> simp only [control, Retrying.control, answered] <;> rfl

theorem control_error {request : Control} {m' : Metered (Scripted σ)} {error : StoreError}
    (t : Trial σ) (forward : request ≠ .rollback)
    (answered : (Metered.store (Scripted.store inner)).control request (Retrying.inner t) =
      (.error error, m')) :
    control inner request t = (.error error, ⟨m', t.depth⟩) := by
  cases request with
  | rollback => exact absurd rfl forward
  | _ => simp only [control, Retrying.control, answered]

theorem begin_cases (laws : inner.Transactional opened) (t : Trial σ) :
    (∃ t', control inner .begin t = (.ok (), t') ∧ t'.depth = t.depth + 1 ∧
      t'.runs = t.runs ∧
      inner.control .begin t.base = (.ok (), t'.base)) ∨
    ∃ error t', control inner .begin t = (.error error, t') ∧ t'.depth = t.depth ∧
      t'.runs = t.runs ∧ t'.base = t.base := by
  obtain ⟨m', runs, ⟨answered, state⟩ | ⟨error, answered, state⟩⟩ :=
    attempt_cases (inner.control .begin) (Retrying.inner t)
  · rcases begun : inner.control .begin t.base with ⟨error | ⟨⟩, s'⟩
    · have untouched := laws.begin_error begun
      rw [show inner.control .begin (Retrying.inner t).inner.inner = _ from begun] at answered state
      exact Or.inr ⟨error, _, control_error t (by decide) answered, rfl, runs,
        state.trans untouched⟩
    · rw [show inner.control .begin (Retrying.inner t).inner.inner = _ from
        begun] at answered state
      exact Or.inl ⟨_, control_ok t answered, rfl, runs, Prod.ext rfl state.symm⟩
  · exact Or.inr ⟨error, _, control_error t (by decide) answered, rfl, runs, state⟩

theorem commit_cases (laws : inner.Transactional opened) {b : σ} {rest : List σ}
    (level : opened t.base = b :: rest) :
    (∃ t', control inner .commit t = (.ok (), t') ∧ t'.depth = t.depth - 1 ∧
      t'.runs = t.runs ∧
      inner.control .commit t.base = (.ok (), t'.base) ∧ opened t'.base = rest) ∨
    ∃ error t', control inner .commit t = (.error error, t') ∧ t'.depth = t.depth ∧
      t'.runs = t.runs ∧ opened t'.base = b :: rest := by
  obtain ⟨m', runs, ⟨answered, state⟩ | ⟨error, answered, state⟩⟩ :=
    attempt_cases (inner.control .commit) (Retrying.inner t)
  · rcases committed : inner.control .commit t.base with ⟨error | ⟨⟩, s'⟩
    · have still := (laws.commit_error level committed).trans level
      rw [show inner.control .commit (Retrying.inner t).inner.inner = _ from
        committed] at answered state
      exact Or.inr ⟨error, _, control_error t (by decide) answered, rfl, runs,
        (congrArg opened state).trans still⟩
    · have closed := laws.commit_ok level committed
      rw [show inner.control .commit (Retrying.inner t).inner.inner = _ from
        committed] at answered state
      exact Or.inl ⟨_, control_ok t answered, rfl, runs, Prod.ext rfl state.symm,
        (congrArg opened state).trans closed⟩
  · exact Or.inr ⟨error, _, control_error t (by decide) answered, rfl, runs,
      (congrArg opened state).trans level⟩

theorem rollback_restores (laws : inner.Transactional opened) {b : σ} {rest : List σ}
    (level : opened t.base = b :: rest) :
    ∃ t', control inner .rollback t = (.ok (), t') ∧ t'.depth = t.depth - 1 ∧
      t'.runs = t.runs ∧
      t'.base = b := by
  have restored : (Metered.store (Scripted.store inner)).control .rollback (Retrying.inner t) =
      (.ok (), ⟨{ (Retrying.inner t).inner with inner := b }, t.runs⟩) := by
    change ((inner.control .rollback t.base).1,
      Metered.mk { (Retrying.inner t).inner with inner := (inner.control .rollback t.base).2 }
        t.runs) = _
    rw [laws.rollback level]
  exact ⟨_, control_ok t restored, rfl, rfl, rfl⟩

/-- A failure that left no trace. -/
structure Undone (count : Nat) (t t' : Trial σ) : Prop where
  depth : t'.depth = t.depth
  runs : t'.runs ≤ t.runs + count
  base : t'.base = t.base

theorem Undone.follows {t' : Trial σ} (undone : Undone count t t') (error : StoreError)
    (p : Outcome σ β) : Follows opened count t (.error error, t') p :=
  ⟨undone.depth, undone.runs, congrArg opened undone.base, fun _ ok => by cases ok⟩

/-- An operation fails without a trace, or follows its outcome without faults. -/
def Atomic (opened : σ → List σ) (count : Nat) (t : Trial σ) (o : Outcome (Trial σ) β)
    (p : Outcome σ β) : Prop :=
  (∃ error t', o = (.error error, t') ∧ Undone count t t') ∨
  ∃ value t', o = (.ok value, t') ∧ Follows opened count t (.ok value, t') p

/-- A block that follows its run without faults within a level either fails as a transaction and
leaves no trace, or follows that run as a transaction. -/
theorem transaction_atomic (laws : inner.Transactional opened)
    {block : Trial σ → Outcome (Trial σ) β} {p : σ → Outcome σ β}
    (follows : ∀ t', t'.depth = t.depth + 1 → Follows opened count t' (block t') (p t'.base)) :
    Atomic opened count t (Store.transaction (control inner) block t)
      (Store.transaction inner.control p t.base) := by
  rw [Store.transaction, Store.transaction]
  rcases begin_cases laws t with ⟨t₁, begun, depth₁, runs₁, plainBegun⟩ |
    ⟨error, t₁, failed, depth₁, runs₁, base₁⟩
  · have level := laws.begin_ok plainBegun
    obtain ⟨depth₂, runs₂, levels₂, ok₂⟩ := follows t₁ depth₁
    rw [level] at levels₂
    rcases ran : block t₁ with ⟨error | value, t₂⟩
    · rw [ran] at depth₂ runs₂ levels₂
      obtain ⟨t₃, rolled, depth₃, runs₃, base₃⟩ := rollback_restores laws levels₂
      refine Or.inl ⟨error, t₃, ?_, ⟨by omega, by omega, base₃⟩⟩
      simp only [begun, ran, Store.abort, rolled]
    · rw [ran] at depth₂ runs₂ levels₂ ok₂
      have plainRan := ok₂ value rfl
      rcases commit_cases laws levels₂ with
        ⟨t₃, committed, depth₃, runs₃, plainCommitted, levels₃⟩ |
        ⟨error, t₃, failed, depth₃, runs₃, levels₃⟩
      · refine Or.inr ⟨value, t₃, ?_, ⟨?_, ?_, levels₃, ?_⟩⟩
        · simp only [begun, ran, committed]
        · dsimp only at depth₂ depth₃ ⊢
          omega
        · dsimp only at runs₂ runs₃ ⊢
          omega
        · rintro _ ⟨⟩
          simp only [plainBegun, plainRan, plainCommitted]
      · obtain ⟨t₄, rolled, depth₄, runs₄, base₄⟩ := rollback_restores laws levels₃
        refine Or.inl ⟨error, t₄, ?_, ⟨by omega, by omega, base₄⟩⟩
        simp only [begun, ran, failed, Store.abort, rolled]
  · refine Or.inl ⟨error, t₁, ?_, ⟨depth₁, by omega, base₁⟩⟩
    simp only [failed]

theorem follows_bind {p : StoreProgram β} {next : β → StoreProgram α}
    (first : Follows opened 0 t (p.run.run (store policy inner) t)
      (p.run.run (faultless inner) t.base))
    (second : ∀ value t', t'.depth = t.depth → Follows opened 0 t'
      ((next value).run.run (store policy inner) t')
        ((next value).run.run (faultless inner) t'.base)) :
    Follows opened 0 t ((p >>= next).run.run (store policy inner) t)
      ((p >>= next).run.run (faultless inner) t.base) := by
  obtain ⟨depth₁, runs₁, levels₁, ok₁⟩ := first
  rw [Program.run_exceptT_bind, Program.run_exceptT_bind]
  rcases ran : p.run.run (store policy inner) t with ⟨error | value, t₁⟩
  · rw [ran] at depth₁ runs₁ levels₁
    exact ⟨depth₁, runs₁, levels₁, fun _ ok => by cases ok⟩
  · rw [ran] at depth₁ runs₁ levels₁ ok₁
    rw [ok₁ value rfl]
    obtain ⟨depth₂, runs₂, levels₂, ok₂⟩ := second value t₁ depth₁
    exact ⟨depth₂.trans depth₁, runs₂.trans runs₁, levels₂.trans levels₁, ok₂⟩

/-- Asking for a node changes nothing. -/
def Steady (inner : Store σ) : Prop := ∀ key s, (inner.call (.findNode key) s).2 = s

variable (policy) in
theorem find_cases (laws : inner.Transactional opened) (steady : Steady inner)
    (within : t.depth ≠ 0) (key : NodeKey) :
    ∃ t', Within opened t t' ∧ t'.base = t.base ∧
      ((store policy inner).call (.findNode key) t = ((inner.call (.findNode key) t.base).1, t') ∨
        ∃ error, (store policy inner).call (.findNode key) t = (.error error, t')) := by
  obtain ⟨t', kept, ⟨answered, state⟩ | ⟨error, failed, state⟩⟩ :=
    call_cases policy laws within (.findNode key)
  · exact ⟨t', kept, state.trans (steady key t.base), Or.inl answered⟩
  · exact ⟨t', kept, state, Or.inr ⟨error, failed⟩⟩

theorem lookAgain_follows (laws : inner.Transactional opened) (steady : Steady inner)
    (within : t.depth ≠ 0) (key : NodeKey) (error : StoreError) :
    Follows opened 0 t ((store policy inner).lookAgain key error t)
      ((faultless inner).lookAgain key error t.base) := by
  obtain ⟨t', kept, base, answered | ⟨error', failed⟩⟩ :=
    find_cases policy laws steady within key
  · have plain : (faultless inner).call (.findNode key) t.base =
        ((inner.call (.findNode key) t.base).1, t.base) := Prod.ext rfl (steady key t.base)
    rw [Store.lookAgain, Store.lookAgain, answered, plain]
    rcases (inner.call (.findNode key) t.base).1 with _ | _ | id
    · exact kept.follows fun _ ok => by cases ok
    · exact kept.follows fun _ ok => by cases ok
    · exact kept.follows fun _ ok => by cases ok; rw [base]
  · rw [Store.lookAgain, failed]
    exact kept.follows fun _ ok => by cases ok

theorem lookAgain_missing (laws : inner.Transactional opened) (steady : Steady inner)
    (within : t.depth ≠ 0) {key : NodeKey}
    (missing : (inner.call (.findNode key) t.base).1 = .ok none) (error : StoreError)
    (p : Outcome σ (NodeId × Bool)) :
    Follows opened 0 t ((store policy inner).lookAgain key error t) p := by
  obtain ⟨t', kept, _, answered | ⟨error', failed⟩⟩ :=
    find_cases policy laws steady within key
  · rw [Store.lookAgain, answered, missing]
    exact kept.follows fun _ ok => by cases ok
  · rw [Store.lookAgain, failed]
    exact kept.follows fun _ ok => by cases ok

/-- A merge that fails to insert without an effect does not find the node at the second look. -/
theorem merged_follows (laws : inner.Transactional opened) (steady : Steady inner)
    (within : t.depth ≠ 0) (node : Node) (key : NodeKey) :
    Follows opened 0 t ((store policy inner).merged node key t)
      ((faultless inner).merged node key t.base) := by
  obtain ⟨t₁, kept₁, base₁, answered₁ | ⟨error, failed₁⟩⟩ :=
    find_cases policy laws steady within key
  · have plain : (faultless inner).call (.findNode key) t.base =
        ((inner.call (.findNode key) t.base).1, t.base) := Prod.ext rfl (steady key t.base)
    rw [Store.merged, Store.merged, answered₁, plain, ← base₁]
    rcases found : (inner.call (.findNode key) t₁.base).1 with error | _ | id
    · exact kept₁.follows fun _ ok => by cases ok
    · have within₁ : t₁.depth ≠ 0 := kept₁.depth ▸ within
      obtain ⟨t₂, kept₂, ⟨answered₂, base₂⟩ | ⟨error, failed₂, base₂⟩⟩ :=
        call_cases policy laws within₁ (.insertNode node)
      · have within₂ : t₂.depth ≠ 0 := kept₂.depth ▸ within₁
        have insertion : (faultless inner).call (.insertNode node) t₁.base =
            inner.call (.insertNode node) t₁.base := rfl
        dsimp only
        rw [answered₂, insertion]
        rcases inserted : inner.call (.insertNode node) t₁.base with ⟨error | id, s₂⟩
        · rw [inserted] at base₂
          obtain rfl : t₂.base = s₂ := base₂
          dsimp only
          split
          · exact (lookAgain_follows laws steady within₂ key error).after (kept₁.trans kept₂)
          · exact (kept₁.trans kept₂).follows fun _ ok => by cases ok
        · rw [inserted] at base₂
          exact (kept₁.trans kept₂).follows fun _ ok => by cases ok; rw [base₂]
      · have within₂ : t₂.depth ≠ 0 := kept₂.depth ▸ within₁
        dsimp only
        rw [failed₂]
        dsimp only
        split
        · rw [← base₂] at found
          exact (lookAgain_missing laws steady within₂ found error _).after
            (kept₁.trans kept₂)
        · exact (kept₁.trans kept₂).follows fun _ ok => by cases ok
    · exact kept₁.follows fun _ ok => by cases ok; rfl
  · rw [Store.merged, failed₁]
    exact kept₁.follows fun _ ok => by cases ok

theorem merge_follows (laws : inner.Transactional opened) (steady : Steady inner)
    (within : t.depth ≠ 0) (node : Node) :
    Follows opened 0 t ((StoreProgram.mergeNode node).run.run (store policy inner) t)
      ((StoreProgram.mergeNode node).run.run (faultless inner) t.base) := by
  cases keyed : node.key? with
  | none =>
      rw [StoreProgram.mergeNode, keyed]
      exact follows_bind (call_follows laws within _) fun value t' _ =>
        Within.follows ⟨rfl, rfl, rfl⟩ fun _ ok => Prod.ext ok rfl
  | some key =>
      rw [StoreProgram.run_mergeNode _ keyed, StoreProgram.run_mergeNode _ keyed]
      exact merged_follows laws steady within node key

variable (policy) in
theorem strict_follows (laws : inner.Transactional opened) (steady : Steady inner)
    {p : StoreProgram α} (strict : p.Strict) (within : t.depth ≠ 0) :
    Follows opened 0 t (p.run.run (store policy inner) t) (p.run.run (faultless inner) t.base) := by
  induction strict generalizing t with
  | pure value => exact ⟨rfl, le_rfl, rfl, fun _ ok => Prod.ext ok rfl⟩
  | throw error => exact ⟨rfl, le_rfl, rfl, fun _ ok => by cases ok⟩
  | call q => exact call_follows laws within q
  | merge node => exact merge_follows laws steady within node
  | @atomically _ body _ ih =>
      have nested : (StoreProgram.atomically body).run.run (store policy inner) t =
          Store.transaction (control inner) (fun t' => body.run.run (store policy inner) t') t := by
        change Retrying.atomically policy _ _ t = _
        rw [Retrying.atomically, if_neg within]
        rfl
      rw [nested]
      rcases transaction_atomic laws (p := fun s => body.run.run (faultless inner) s)
        (fun t' depth => ih (t := t') (by omega)) with
          ⟨error, t', failed, undone⟩ | ⟨value, t', done, follows⟩
      · rw [failed]
        exact undone.follows error _
      · rw [done]
        exact follows
  | bind _ _ ihFirst ih =>
      exact follows_bind (ihFirst within) fun value t' depth => ih value (depth ▸ within)

variable (opened policy) in
theorem attempt_atomic {operation : Trial σ → Outcome (Trial σ) β} {p : σ → Outcome σ β}
    (atomic : ∀ t', t'.depth = t.depth → t'.base = t.base →
      Atomic opened 1 t' (operation t') (p t'.base)) (left retry : Nat) :
    Atomic opened (left + 1) t
      ((policy.attempt operation RetryPolicy.idle left retry t).result,
        (policy.attempt operation RetryPolicy.idle left retry t).state)
      (p t.base) := by
  induction left generalizing t retry with
  | zero =>
      rw [RetryPolicy.attempt]
      rcases atomic t rfl rfl with ⟨error, t', failed, undone⟩ | ⟨value, t', done, follows⟩
      · rw [failed]
        dsimp only
        split
        · exact Or.inl ⟨_, t', rfl, undone⟩
        · exact Or.inl ⟨_, t', rfl, undone⟩
      · rw [done]
        exact Or.inr ⟨value, t', rfl, follows⟩
  | succ left ih =>
      rw [RetryPolicy.attempt]
      rcases atomic t rfl rfl with ⟨error, t', failed, undone⟩ | ⟨value, t', done, follows⟩
      · obtain ⟨depth, runs, base⟩ := undone
        rw [failed]
        dsimp only
        split
        · have later := ih (t := t') (fun t'' hdepth hbase =>
            atomic t'' (hdepth.trans depth) (hbase.trans base)) (retry + 1)
          rcases later with ⟨error', t'', failed', undone'⟩ | ⟨value, t'', done', follows'⟩
          · obtain ⟨result, state⟩ := Prod.mk.inj failed'
            refine Or.inl ⟨error', t'', Prod.ext result state, ?_⟩
            have runs' := undone'.runs
            exact ⟨undone'.depth.trans depth, by omega, undone'.base.trans base⟩
          · obtain ⟨result, state⟩ := Prod.mk.inj done'
            refine Or.inr ⟨value, t'', Prod.ext result state, ?_⟩
            obtain ⟨depth', runs', levels', ok'⟩ := follows'
            rw [base] at levels' ok'
            dsimp only at depth' runs'
            exact ⟨depth'.trans depth, by dsimp only; omega, levels', ok'⟩
        · exact Or.inl ⟨_, t', rfl, depth, by omega, base⟩
      · rw [done]
        exact Or.inr ⟨value, t', rfl, follows.depth, follows.runs.trans (by omega),
          follows.levels,
          follows.ok⟩

/-- A transaction on a store that retries runs its block at most once more than there are retries.
If it succeeds, it has the answer and the state of one transaction without faults; if it fails, the
state is the one before. No level is left open. -/
theorem atomically_all_or_nothing (laws : inner.Transactional opened) (steady : Steady inner)
    (policy : RetryPolicy) {block : StoreProgram α} (strict : block.Strict)
    (script : Nat → Option StoreError) {s : σ} (closed : opened s = []) :
    let outcome := (store policy inner).atomically
      (fun t => block.run.run (store policy inner) t.counted) (start s script)
    outcome.2.runs ≤ policy.maxRetries + 1 ∧
    (∀ value, outcome.1 = .ok value →
      (faultless inner).atomically (fun s => block.run.run (faultless inner) s) s =
        (.ok value, outcome.2.base)) ∧
    (∀ error, outcome.1 = .error error → outcome.2.base = s) ∧
    outcome.2.depth = 0 ∧ opened outcome.2.base = [] := by
  intro outcome
  -- No call within a block is repeated, so that one attempt is one transaction of the store behind.
  have atomic (t : Trial σ) (depth : t.depth = 0) : Atomic opened 1 t
      (Store.transaction (control inner) (fun t => block.run.run (store policy inner) t.counted) t)
      ((faultless inner).atomically (fun s => block.run.run (faultless inner) s) t.base) := by
    refine transaction_atomic laws fun t' depth' => ?_
    have ran := strict_follows policy (t := t'.counted) laws steady strict
      (show t'.depth ≠ 0 by omega)
    exact ⟨ran.depth, ran.runs, ran.levels, ran.ok⟩
  have tried := attempt_atomic opened policy (t := start s script)
    (p := fun s => (faultless inner).atomically (fun s => block.run.run (faultless inner) s) s)
    (fun t' depth _ => atomic t' depth) policy.maxRetries 0
  change Atomic opened (policy.maxRetries + 1) (start s script) outcome _ at tried
  rcases tried with ⟨error, t', failed, depth, runs, base⟩ |
    ⟨value, t', done, depth, runs, levels, ok⟩
  · rw [failed]
    refine ⟨runs.trans (Nat.zero_add _).le, ?_, fun _ _ => base, depth, ?_⟩
    · rintro _ ⟨⟩
    · exact (congrArg opened base).trans closed
  · rw [done]
    refine ⟨runs.trans (Nat.zero_add _).le, ok, ?_, depth, levels.trans closed⟩
    rintro _ ⟨⟩

/-- Two nodes, the second merged in a block within. -/
def pair : StoreProgram (NodeId × Bool) := do
  let _ ← StoreProgram.call (.insertNode (.symbol "parse"))
  StoreProgram.atomically (StoreProgram.mergeNode (.symbol "main"))

theorem pair_strict : pair.Strict :=
  .bind (.call _) fun _ => .atomically (.merge _)

/-- The first insertion, the begin of the second attempt and a commit of the third one fail. -/
def busy (position : Nat) : Option StoreError :=
  if position ∈ [1, 2, 8] then some (.unavailable "busy") else none

theorem atomically_all_or_nothing_pair :
    let outcome := (store {} Memory.store).atomically
      (fun t => pair.run.run (store {} Memory.store) t.counted) (start {} busy)
    outcome.1.isOk = true ∧ outcome.2.runs = 3 ∧
    outcome.2.runs ≤ 3 + 1 ∧
    (∀ value, outcome.1 = .ok value →
      (faultless Memory.store).atomically (fun s => pair.run.run (faultless Memory.store) s) {} =
        (.ok value, outcome.2.base)) ∧
    (∀ error, outcome.1 = .error error → outcome.2.base = {}) ∧
    outcome.2.depth = 0 ∧ Memory.view.opened outcome.2.base = [] :=
  ⟨by decide +kernel, by decide +kernel,
    atomically_all_or_nothing Memory.transactional (fun _ _ => rfl) {} pair_strict busy rfl⟩

end Trial

end BlastRadius
