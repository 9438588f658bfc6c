import BlastRadius.Proofs.Store.Interruption

/-!
Transient failures on a store that tries again. A script with no more faults than there are retries
changes neither answers nor states: a call outside blocks is repeated until it passes, and a block
that stops at a transient failure is rolled back and begun anew.

For this a block must hand on the transient failures of its calls and have none of its own.
-/

namespace BlastRadius

variable {σ τ α β : Type}

/-- A store that has no transient failures of its own. -/
structure Store.Calm (store : Store σ) : Prop where
  control (request : Control) (s : σ) : transient (store.control request s).1 = false
  call (q : Call) (s : σ) : transient (store.call q s).1 = false

/-- At most `n` of the requests to come fail, all of them with transient errors. -/
def Scripted.Faults (m : Scripted σ) (n : Nat) : Prop :=
  ∃ ahead : Finset Nat, ahead.card ≤ n ∧ ∀ k error, m.position ≤ k →
    m.script k = some error →
    k ∈ ahead ∧ error.isTransient = true

theorem Scripted.Faults.mono {m : Scripted σ} {k n : Nat} (faults : m.Faults k) (le : k ≤ n) :
    m.Faults n := by
  obtain ⟨ahead, few, covers⟩ := faults
  exact ⟨ahead, few.trans le, covers⟩

theorem Scripted.faults_of_encard {script : Nat → Option StoreError} {n : Nat} (s : σ)
    (few : {k | (script k).isSome}.encard ≤ n)
    (worth : ∀ k error, script k = some error → error.isTransient = true) :
    Scripted.Faults ⟨s, script, 0⟩ n := by
  have finite : {k | (script k).isSome}.Finite := Set.finite_of_encard_le_coe few
  refine ⟨finite.toFinset, ?_, fun k error _ fault => ⟨?_, worth k error fault⟩⟩
  · rwa [finite.encard_eq_coe_toFinset_card, Nat.cast_le] at few
  · rw [Set.Finite.mem_toFinset]
    exact Option.isSome_of_mem fault

theorem Scripted.attempt_passes {m : Scripted σ} {n : Nat} (faults : m.Faults n)
    (request : σ → Outcome σ α) :
    ((attempt request m).1 = (request m.inner).1 ∧
      (attempt request m).2.inner = (request m.inner).2 ∧ (attempt request m).2.Faults n) ∨
    (transient (attempt request m).1 = true ∧ (attempt request m).2.inner = m.inner ∧
      ∃ k < n, (attempt request m).2.Faults k) := by
  obtain ⟨ahead, few, covers⟩ := faults
  rw [attempt]
  rcases fault : m.script m.position with _ | error
  · refine Or.inl ⟨rfl, rfl, ahead, few, fun k error later => ?_⟩
    exact covers k error (Nat.le_of_succ_le later)
  · obtain ⟨among, worth⟩ := covers _ error le_rfl fault
    have smaller : (ahead.erase m.position).card < n :=
      (Finset.card_erase_lt_of_mem among).trans_le few
    refine Or.inr ⟨worth, rfl, _, smaller, ahead.erase m.position, le_rfl, ?_⟩
    intro k error later fault
    obtain ⟨among, worth⟩ := covers k error (Nat.le_of_succ_le later) fault
    exact ⟨Finset.mem_erase.mpr ⟨(Nat.lt_of_succ_le later).ne', among⟩, worth⟩

/-- With at most `n` faults ahead, an outcome is the one without faults, or one of the
faults made it a failure. -/
inductive Survives (fails : α → Bool) (n : Nat) (expected : α × σ) (x : α)
    (m : Scripted σ) : Prop where
  | passed : fails x = false → (x, m.inner) = expected → m.Faults n →
      Survives fails n expected x m
  | cut {k : Nat} : fails x = true → k < n → m.Faults k → Survives fails n expected x m

theorem Survives.of_ok {n : Nat} {expected : Outcome σ α} {value : α} {m : Scripted σ}
    (survives : Survives transient n expected (.ok value) m) :
    (.ok value, m.inner) = expected ∧ m.Faults n := by
  rcases survives with ⟨_, same, ahead⟩ | ⟨impossible, _, _⟩
  · exact ⟨same, ahead⟩
  · cases impossible

theorem RetryPolicy.attempt_survives {P : Nat → τ → Prop} {Q : Outcome τ α → Prop}
    (policy : RetryPolicy) (operation : τ → Outcome τ α)
    (once : ∀ n t, P n t → transient (operation t).1 = false ∧ Q (operation t) ∨
      transient (operation t).1 = true ∧ ∃ k < n, P k (operation t).2)
    {n left : Nat} (enough : n ≤ left) (retry : Nat) {t : τ} (faults : P n t) :
    Q (policy.attempt operation RetryPolicy.idle left retry t).outcome := by
  induction left generalizing n retry t with
  | zero =>
      rcases once n t faults with ⟨final, done⟩ | ⟨_, k, fewer, _⟩
      · rwa [policy.attempt_final final]
      · omega
  | succ left ih =>
      rcases once n t faults with ⟨final, done⟩ | ⟨again, k, fewer, faults'⟩
      · rwa [policy.attempt_final final]
      · rw [policy.attempt_again again]
        exact ih (by omega) (retry + 1) faults'

/-- A transient failure of a call ends the program with a failure, and nothing else does. -/
def Program.Relays : {α : Type} → (α → Bool) → Program α → Prop
  | _, fails, done value => fails value = false
  | _, fails, call _ next =>
      (∀ r, transient r = true → ∃ x, next r = done x ∧ fails x = true) ∧
        ∀ r, transient r = false → (next r).Relays fails
  | _, _, atomically _ _ => False

section Runs

variable {inner : Store σ} (calm : inner.Calm) (policy : RetryPolicy) {n : Nat}
include calm

theorem Program.Relays.run {fails : α → Bool} {p : Program α} (relays : p.Relays fails)
    {t : Retrying (Scripted σ)} (within : t.depth ≠ 0) (faults : t.inner.Faults n) :
    let ran := p.run (Retrying.store policy (Scripted.store inner)) t
    Survives fails n (p.run inner t.inner.inner) ran.1 ran.2.inner := by
  induction p generalizing t with
  | done value => exact .passed relays rfl faults
  | call q next ih =>
      have single : (Retrying.store policy (Scripted.store inner)).call q t =
          ((Scripted.attempt (inner.call q) t.inner).1,
            ⟨(Scripted.attempt (inner.call q) t.inner).2, t.depth⟩) := by
        change Retrying.call policy _ q t = _
        rw [Retrying.call, if_neg within]
        rfl
      rw [Program.run, Program.run, single]
      rcases Scripted.attempt_passes faults (inner.call q) with
        ⟨answer, base, ahead⟩ | ⟨failed, _, k, fewer, ahead⟩
      · have final := calm.call q t.inner.inner
        rw [← answer] at final ⊢
        rw [← base]
        exact ih _ (relays.2 _ final)
          (t := ⟨(Scripted.attempt (inner.call q) t.inner).2, t.depth⟩)
          within ahead
      · obtain ⟨x, stopped, failure⟩ := relays.1 _ failed
        rw [stopped]
        exact .cut failure fewer ahead
  | atomically body next _ _ => exact relays.elim

theorem Retrying.control_survives (request : Control) (forward : request ≠ .rollback)
    {t : Retrying (Scripted σ)} (faults : t.inner.Faults n) :
    let asked := Retrying.control (Scripted.store inner) request t
    Survives transient n (inner.control request t.inner.inner) asked.1 asked.2.inner := by
  intro asked
  obtain ⟨answer, same⟩ := Retrying.control_inner (Scripted.store inner) request t
  rw [Scripted.control_forward inner forward] at answer same
  rw [show asked.1 = _ from answer, show asked.2.inner = _ from same]
  rcases Scripted.attempt_passes faults (inner.control request) with
    ⟨passed, base, ahead⟩ | ⟨failed, _, k, fewer, ahead⟩
  · exact .passed (passed ▸ calm.control request _) (Prod.ext passed base) ahead
  · exact .cut failed fewer ahead

theorem Program.Relays.transaction {body : Program (Except StoreError β)}
    (relays : body.Relays transient) {t : Retrying (Scripted σ)} (faults : t.inner.Faults n) :
    let front := Retrying.store policy (Scripted.store inner)
    let ran := Store.transaction (Retrying.control (Scripted.store inner)) (body.run front) t
    Survives transient n (Store.transaction inner.control (body.run inner) t.inner.inner) ran.1
      ran.2.inner := by
  intro front ran
  have begins := Retrying.control_survives calm .begin (by decide) faults
  change Survives transient n _ (Store.transaction _ _ t).1 (Store.transaction _ _ t).2.inner
  rw [Store.transaction, Store.transaction]
  rcases begun : Retrying.control (Scripted.store inner) .begin t with ⟨error | ⟨⟩, t₁⟩
  · rw [begun] at begins
    rcases begins with ⟨final, same, ahead⟩ | ⟨failed, fewer, ahead⟩
    · rw [← same]
      exact .passed final rfl ahead
    · exact .cut failed fewer ahead
  · rw [begun] at begins
    obtain ⟨same, ahead⟩ := begins.of_ok
    have runs := relays.run calm policy (Retrying.depth_of_begin begun) ahead
    rw [← same]
    dsimp only
    rcases ended : body.run front t₁ with ⟨error | value, t₂⟩
    · rw [show body.run _ t₁ = _ from ended] at runs
      rcases runs with ⟨final, same, ahead⟩ | ⟨failed, fewer, ahead⟩
      · rw [← same]
        exact .passed final rfl ahead
      · exact .cut failed fewer ahead
    · rw [show body.run _ t₁ = _ from ended] at runs
      obtain ⟨same, ahead⟩ := runs.of_ok
      have commits := Retrying.control_survives calm .commit (by decide) ahead
      rw [← same]
      dsimp only
      rcases committed : Retrying.control (Scripted.store inner) .commit t₂ with
        ⟨error | ⟨⟩, t₃⟩
      · rw [committed] at commits
        rcases commits with ⟨final, same, ahead⟩ | ⟨failed, fewer, ahead⟩
        · rw [← same]
          exact .passed final rfl ahead
        · exact .cut failed fewer ahead
      · rw [committed] at commits
        obtain ⟨same, ahead⟩ := commits.of_ok
        rw [← same]
        exact .passed rfl rfl ahead

variable (enough : n ≤ policy.maxRetries)
include enough

theorem Retrying.call_survives (q : Call) {t : Retrying (Scripted σ)} (closed : t.depth = 0)
    (faults : t.inner.Faults n) :
    ∃ t', (Retrying.store policy (Scripted.store inner)).call q t =
        ((inner.call q t.inner.inner).1, t') ∧
      t'.inner.inner = (inner.call q t.inner.inner).2 ∧ t'.depth = 0 ∧ t'.inner.Faults n := by
  have tried := policy.attempt_survives ((Scripted.store inner).call q)
    (P := fun k m => k ≤ n ∧ m.inner = t.inner.inner ∧ m.Faults k)
    (Q := fun o => o.1 = (inner.call q t.inner.inner).1 ∧
      o.2.inner = (inner.call q t.inner.inner).2 ∧ o.2.Faults n) ?_ enough 0
        ⟨le_rfl, rfl, faults⟩
  · obtain ⟨answer, base, ahead⟩ := tried
    refine ⟨⟨_, t.depth⟩, ?_, base, closed, ahead⟩
    change Retrying.call policy _ q t = _
    rw [Retrying.call, if_pos closed]
    exact Prod.ext answer rfl
  · rintro k m ⟨le, same, faults⟩
    rcases Scripted.attempt_passes faults (inner.call q) with
      ⟨passed, base, ahead⟩ | ⟨failed, base, j, fewer, ahead⟩
    · rw [same] at passed base
      exact Or.inl ⟨(congrArg transient passed).trans (calm.call q _), passed, base,
        ahead.mono le⟩
    · exact Or.inr ⟨failed, j, fewer, fewer.le.trans le, base.trans same, ahead⟩

theorem Retrying.atomically_survives {opened : σ → List σ} (laws : inner.Transactional opened)
    {body : Program (Except StoreError β)} (relays : body.Relays transient)
    {t : Retrying (Scripted σ)} (closed : t.depth = 0) (faults : t.inner.Faults n) :
    let front := Retrying.store policy (Scripted.store inner)
    let expected := Store.transaction inner.control (body.run inner) t.inner.inner
    ∃ t', front.atomically (body.run front) t = (expected.1, t') ∧
      t'.inner.inner = expected.2 ∧
      t'.depth = 0 ∧ t'.inner.Faults n := by
  intro front expected
  have opens (t : Retrying (Scripted σ)) :=
    (Retrying.keeps_opened laws policy).run body.only_true t
  have levels (t : Retrying (Scripted σ)) : (body.run front t).2.depth = t.depth :=
    (Retrying.keeps_depth policy (Scripted.store inner)).run body.only_true t
  have tried := policy.attempt_survives
    (Store.transaction (Retrying.control (Scripted.store inner)) (body.run front))
    (P := fun k t' => k ≤ n ∧ t'.depth = 0 ∧ t'.inner.inner = t.inner.inner ∧
      t'.inner.Faults k)
    (Q := fun o => (o.1, o.2.inner.inner) = expected ∧ o.2.depth = 0 ∧ o.2.inner.Faults n)
    ?_ enough 0 ⟨le_rfl, closed, rfl, faults⟩
  · obtain ⟨same, depth, ahead⟩ := tried
    refine ⟨_, ?_, (Prod.ext_iff.mp same).2, depth, ahead⟩
    change Retrying.atomically policy _ _ t = _
    rw [Retrying.atomically, if_pos closed]
    exact Prod.ext (Prod.ext_iff.mp same).1 rfl
  · rintro k t' ⟨le, closed', same', faults'⟩
    have depth : (Store.transaction (Retrying.control (Scripted.store inner)) (body.run front)
        t').2.depth = 0 := ((Retrying.control_counted _).transaction levels t').trans closed'
    rcases relays.transaction calm policy faults' with ⟨final, same, ahead⟩ |
      ⟨failed, fewer, ahead⟩
    · rw [same'] at same
      exact Or.inl ⟨final, same, depth, ahead.mono le⟩
    · refine Or.inr ⟨failed, _, fewer, fewer.le.trans le, depth, ?_, ahead⟩
      rcases (Retrying.passes (Scripted.passes inner)).transaction_cases laws opens t' with
        ⟨_, _, undone⟩ | ⟨value, _, answer, _⟩
      · exact undone.trans same'
      · rw [show (Store.transaction _ _ t').1 = _ from answer] at failed
        cases failed

/-- With no more faults than retries, a program whose blocks hand on transient failures has the
answer and leaves the state that it has and leaves without faults. -/
theorem Program.run_retrying {opened : σ → List σ} (laws : inner.Transactional opened)
    (once : ∀ {β : Type} (body : σ → Outcome σ β) (s : σ),
      inner.atomically body s = Store.transaction inner.control body s)
    {p : Program α} (relays : p.Each (fun _ => True) fun _ body => body.Relays transient)
    {t : Retrying (Scripted σ)} (closed : t.depth = 0) (faults : t.inner.Faults n) :
    let ran := p.run (Retrying.store policy (Scripted.store inner)) t
    (ran.1, ran.2.inner.inner) = p.run inner t.inner.inner := by
  induction p generalizing t with
  | done value => rfl
  | call q next ih =>
      obtain ⟨t', answered, base, closed', ahead⟩ :=
        Retrying.call_survives calm policy enough q closed faults
      rw [Program.run, Program.run, answered, ← base]
      exact ih _ (relays.2 _) closed' ahead
  | atomically body next _ ih =>
      obtain ⟨t', answered, base, closed', ahead⟩ :=
        Retrying.atomically_survives calm policy enough laws relays.1 closed faults
      rw [Program.run, Program.run, answered, once, ← base]
      exact ih _ (relays.2 _) closed' ahead

end Runs

end BlastRadius
