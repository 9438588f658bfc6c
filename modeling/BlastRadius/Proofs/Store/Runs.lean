import BlastRadius.Store.Program

/-!
What a program may do when its calls behave as a step relation says. The states of the relation need
not be those of a store: a relation over contents describes every store that holds contents.

A transaction that fails leaves the state in which it was begun.
-/

namespace BlastRadius

/-- The results that a call may have in a state, each with the state that it leaves. -/
abbrev Steps (S : Type) := S → (q : Call) → Except StoreError q.Reply → S → Prop

/-- The state after a block that was run as a transaction. -/
def settled {S β : Type} (before after : S) : Except StoreError β → S
  | .ok _ => after
  | .error _ => before

/-- The results that a program may have in a state, each with the state that it leaves. -/
def Program.Runs {S : Type} (step : Steps S) :
    {α : Type} → Program α → S → α → S → Prop
  | _, done value, s, x, s' => x = value ∧ s' = s
  | _, call q next, s, x, s' => ∃ r m, step s q r m ∧ (next r).Runs step m x s'
  | _, atomically body next, s, x, s' =>
      ∃ r m, body.Runs step s r m ∧ (next r).Runs step (settled s m r) x s'

namespace Program

variable {S α β : Type} {step : Steps S} {s s' : S}

theorem runs_bind {p : Program α} {f : α → Program β} {y : β} :
    (p >>= f).Runs step s y s' ↔ ∃ x m, p.Runs step s x m ∧ (f x).Runs step m y s' := by
  change (p.bind f).Runs step s y s' ↔ _
  induction p generalizing s with
  | done value =>
      constructor
      · exact fun runs => ⟨value, s, ⟨rfl, rfl⟩, runs⟩
      · rintro ⟨_, _, ⟨rfl, rfl⟩, runs⟩
        exact runs
  | call q next ih =>
      constructor
      · rintro ⟨r, m, stepped, runs⟩
        obtain ⟨x, m', first, second⟩ := (ih r).mp runs
        exact ⟨x, m', ⟨r, m, stepped, first⟩, second⟩
      · rintro ⟨x, m', ⟨r, m, stepped, first⟩, second⟩
        exact ⟨r, m, stepped, (ih r).mpr ⟨x, m', first, second⟩⟩
  | atomically body next _ ih =>
      constructor
      · rintro ⟨r, m, inner, runs⟩
        obtain ⟨x, m', first, second⟩ := (ih r).mp runs
        exact ⟨x, m', ⟨r, m, inner, first⟩, second⟩
      · rintro ⟨x, m', ⟨r, m, inner, first⟩, second⟩
        exact ⟨r, m, inner, (ih r).mpr ⟨x, m', first, second⟩⟩

theorem runs_map {p : Program α} {f : α → β} {y : β} :
    (f <$> p).Runs step s y s' ↔ ∃ x, p.Runs step s x s' ∧ y = f x := by
  rw [map_eq_pure_bind, runs_bind]
  constructor
  · rintro ⟨x, m, runs, rfl, rfl⟩
    exact ⟨x, runs, rfl⟩
  · rintro ⟨x, runs, rfl⟩
    exact ⟨x, s', runs, rfl, rfl⟩

theorem Runs.mono {step' : Steps S} (sub : ∀ s q r s', step s q r s' → step' s q r s')
    {p : Program α} {x : α} (runs : p.Runs step s x s') : p.Runs step' s x s' := by
  induction p generalizing s s' with
  | done value => exact runs
  | call q next ih =>
      obtain ⟨r, m, stepped, rest⟩ := runs
      exact ⟨r, m, sub s q r m stepped, ih r rest⟩
  | atomically body next ihBody ih =>
      obtain ⟨r, m, inner, rest⟩ := runs
      exact ⟨r, m, ihBody inner, ih r rest⟩

/-- When a call that may step in one way steps in no other, a program that may run in one way runs
in no other. -/
theorem Runs.unique {step' : Steps S}
    (unique : ∀ s q r m r' m', step s q r m → step' s q r' m' → r' = r ∧ m' = m)
    {p : Program α} {x y : α} {t : S} (runs : p.Runs step s x s') (other : p.Runs step' s y t) :
    y = x ∧ t = s' := by
  induction p generalizing s s' t with
  | done value =>
      obtain ⟨rfl, rfl⟩ := runs
      exact other
  | call q next ih =>
      obtain ⟨r, m, stepped, rest⟩ := runs
      obtain ⟨r', m', stepped', rest'⟩ := other
      obtain ⟨rfl, rfl⟩ := unique _ _ _ _ _ _ stepped stepped'
      exact ih _ rest rest'
  | atomically body next ihBody ih =>
      obtain ⟨r, m, inner, rest⟩ := runs
      obtain ⟨r', m', inner', rest'⟩ := other
      obtain ⟨rfl, rfl⟩ := ihBody inner inner'
      exact ih _ rest rest'

end Program

section Stopping

variable {S α β ε δ : Type} {step : Steps S} {s s' : S}

/-- What is left to do after a result. -/
def andThen (f : α → ExceptT ε Program β) : Except ε α → Program (Except ε β)
  | .ok value => (f value).run
  | .error error => Program.done (.error error)

theorem runs_exceptT_bind {p : ExceptT ε Program α} {f : α → ExceptT ε Program β}
    {y : Except ε β} : (p >>= f).run.Runs step s y s' ↔
      ∃ x m, p.run.Runs step s x m ∧ (andThen f x).Runs step m y s' := by
  rw [ExceptT.run_bind, Program.runs_bind]
  refine exists_congr fun x => exists_congr fun m => and_congr_right fun _ => ?_
  cases x <;> rfl

theorem runs_exceptT_map {p : ExceptT ε Program α} {f : α → β} {y : Except ε β} :
    (f <$> p).run.Runs step s y s' ↔ ∃ x, p.run.Runs step s x s' ∧ y = x.map f := by
  rw [ExceptT.run_map, Program.runs_map]

theorem runs_storeCall {q : Call} {r : Except StoreError q.Reply} :
    (StoreProgram.call q).run.Runs step s r s' ↔ step s q r s' := by
  constructor
  · rintro ⟨_, _, stepped, rfl, rfl⟩
    exact stepped
  · exact fun stepped => ⟨r, s', stepped, rfl, rfl⟩

theorem runs_storeAtomically {body : StoreProgram β} {r : Except StoreError β} :
    (StoreProgram.atomically body).run.Runs step s r s' ↔
      ∃ m, body.run.Runs step s r m ∧ s' = settled s m r := by
  constructor
  · rintro ⟨_, m, inner, rfl, rfl⟩
    exact ⟨m, inner, rfl⟩
  · rintro ⟨m, inner, rfl⟩
    exact ⟨r, m, inner, rfl, rfl⟩

end Stopping

end BlastRadius
