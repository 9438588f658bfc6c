import BlastRadius.Proofs.Store.Medium
import BlastRadius.Proofs.Store.Scripted

/-!
Loops whose body says whether to go on, and with what. A loop has no bound of its own: it ends after
as many runs of its body as it takes, or never.
-/

namespace BlastRadius

variable {σ τ ρ ε : Type}

/-- A loop that begins with a value and in a state ends after so many runs of its body,
with a result and in another state. A run of the body fails, ends the loop, or says
with what it goes on. -/
inductive Ends (store : Store σ) (body : τ → ExceptT ε Program (τ ⊕ ρ)) :
    τ → σ → Nat → Except ε ρ → σ → Prop where
  | failed {t : τ} {s s' : σ} {error : ε} :
      (body t).run.run store s = (.error error, s') → Ends store body t s 1 (.error error) s'
  | ended {t : τ} {s s' : σ} {result : ρ} :
      (body t).run.run store s = (.ok (.inr result), s') → Ends store body t s 1 (.ok result) s'
  | again {t t' : τ} {s m s' : σ} {n : Nat} {x : Except ε ρ} :
      (body t).run.run store s = (.ok (.inl t'), m) → Ends store body t' m n x s' →
      Ends store body t s (n + 1) x s'

namespace Ends

variable {store : Store σ} {body : τ → ExceptT ε Program (τ ⊕ ρ)} {t : τ}
    {s s' : σ} {n : Nat}
  {x : Except ε ρ}

theorem unique {s'' : σ} {n' : Nat} {y : Except ε ρ} (first : Ends store body t s n x s')
    (second : Ends store body t s n' y s'') : n' = n ∧ y = x ∧ s'' = s' := by
  induction first generalizing n' with
  | failed ran =>
      cases second with
      | failed ran' =>
          cases ran.symm.trans ran'
          exact ⟨rfl, rfl, rfl⟩
      | ended ran' | again ran' _ => cases ran.symm.trans ran'
  | ended ran =>
      cases second with
      | ended ran' =>
          cases ran.symm.trans ran'
          exact ⟨rfl, rfl, rfl⟩
      | failed ran' | again ran' _ => cases ran.symm.trans ran'
  | again ran _ ih =>
      cases second with
      | failed ran' | ended ran' => cases ran.symm.trans ran'
      | again ran' rest =>
          cases ran.symm.trans ran'
          obtain ⟨rfl, rfl, rfl⟩ := ih rest
          exact ⟨rfl, rfl, rfl⟩

/-- A loop ends when a number decreases whenever it goes on. Its body is run at most once more than
that number. -/
theorem of_decreasing (medium : Medium) (left : Contents → Nat)
    {body : τ → ExceptT ε Program (τ ⊕ ρ)} {I : τ → Contents → Prop}
    (step : ∀ t c, c.Valid → I t c → ∃ x c', Leads (body t).run c x c' ∧
      ∀ t', x = .ok (.inl t') → I t' c' ∧ left c' < left c)
    {t : τ} {s : medium.State} (sound : medium.view.sound s) (here : I t (medium.view.holds s)) :
    ∃ n x s', Ends medium.store body t s n x s' ∧ n ≤ left (medium.view.holds s) + 1 ∧
      medium.view.sound s' := by
  induction bound : left (medium.view.holds s) using Nat.strongRecOn generalizing t s with
  | _ bound ih =>
      obtain ⟨x, c', leads, more⟩ := step t _ (medium.valid_of_sound sound) here
      obtain ⟨m, ran, holds, sound'⟩ := medium.run_of_leads sound leads
      rcases x with error | t' | result
      · exact ⟨1, _, m, .failed ran, by omega, sound'⟩
      · obtain ⟨there, less⟩ := more t' rfl
        rw [← holds] at there less
        obtain ⟨n, x, s', ends, few, sound''⟩ := ih _ (bound ▸ less) sound' there rfl
        exact ⟨n + 1, x, s', .again ran ends, by omega, sound''⟩
      · exact ⟨1, _, m, .ended ran, by omega, sound'⟩

end Ends

variable {β : Type}

/-- A recursive program, whose first argument bounds the recursion, runs the body of a loop and then
itself. What it answers is completed by what the loop has gathered before. -/
def Unrolls (store : Store σ) (body : τ → ExceptT ε Program (τ ⊕ ρ))
    (program : Nat → τ → ExceptT ε Program β) (complete : τ → β → ρ) : Prop :=
  ∀ t s,
    (∃ error s', (body t).run.run store s = (.error error, s') ∧
      ∀ fuel, (program (fuel + 1) t).run.run store s = (.error error, s')) ∨
    (∃ y s', (body t).run.run store s = (.ok (.inr (complete t y)), s') ∧
      ∀ fuel, (program (fuel + 1) t).run.run store s = (.ok y, s')) ∨
    ∃ t' m, ∃ extend : β → β, (body t).run.run store s = (.ok (.inl t'), m) ∧
      (∀ y, complete t (extend y) = complete t' y) ∧
      ∀ fuel, (program (fuel + 1) t).run.run store s =
        (extend <$> program fuel t').run.run store m

theorem Unrolls.run_of_ends {store : Store σ} {body : τ → ExceptT ε Program (τ ⊕ ρ)}
    {program : Nat → τ → ExceptT ε Program β} {complete : τ → β → ρ}
    (unrolls : Unrolls store body program complete) {t : τ} {s s' : σ} {n : Nat}
    {x : Except ε ρ}
    (ends : Ends store body t s n x s') {fuel : Nat} (enough : n ≤ fuel) :
    ∃ y, (program fuel t).run.run store s = (y, s') ∧ x = y.map (complete t) := by
  induction ends generalizing fuel with
  | @failed t s _ _ ran =>
      obtain ⟨fuel, rfl⟩ := Nat.exists_eq_add_of_le' enough
      rcases unrolls t s with ⟨_, _, ran', same⟩ | ⟨_, _, ran', _⟩ | ⟨_, _, _, ran', _⟩
      · cases ran.symm.trans ran'
        exact ⟨_, same fuel, rfl⟩
      · cases ran.symm.trans ran'
      · cases ran.symm.trans ran'
  | @ended t s _ _ ran =>
      obtain ⟨fuel, rfl⟩ := Nat.exists_eq_add_of_le' enough
      rcases unrolls t s with ⟨_, _, ran', _⟩ | ⟨_, _, ran', same⟩ | ⟨_, _, _, ran', _⟩
      · cases ran.symm.trans ran'
      · cases ran.symm.trans ran'
        exact ⟨_, same fuel, rfl⟩
      · cases ran.symm.trans ran'
  | @again t _ s _ _ n _ ran _ ih =>
      obtain ⟨fuel, rfl⟩ := Nat.exists_eq_add_of_le' enough
      rcases unrolls t s with ⟨_, _, ran', _⟩ | ⟨_, _, ran', _⟩ |
        ⟨_, _, extend, ran', completed, same⟩
      · cases ran.symm.trans ran'
      · cases ran.symm.trans ran'
      · cases ran.symm.trans ran'
        obtain ⟨y, later, rfl⟩ := ih (Nat.le_add_left n fuel)
        refine ⟨y.map extend, by rw [← Nat.add_assoc, same, Program.run_map, later], ?_⟩
        cases y with
        | error error => rfl
        | ok y => exact congrArg Except.ok (completed y).symm

end BlastRadius
