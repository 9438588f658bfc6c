import BlastRadius.Propagation.Run
import BlastRadius.Proofs.Store.Reading

/-!
Propagations under a clock. A commit that comes too late ends the propagation. Up to there the clock
changes nothing, so that what is known of propagations without a deadline says what others do.
-/

namespace BlastRadius

namespace PropagationConfig

variable {config : PropagationConfig}

/-- No commit comes after the deadline. -/
def InTime (config : PropagationConfig) : Prop :=
  ∀ round, config.late round = Propagation.timeless

def untimed (config : PropagationConfig) : PropagationConfig := { config with deadlineMs := none }

theorem inTime_of_untimed (untimed : config.deadlineMs = none) : config.InTime := by
  intro round
  funext stage step
  rw [late, untimed]
  rfl

theorem untimed_inTime (config : PropagationConfig) : config.untimed.InTime := inTime_of_untimed rfl

end PropagationConfig

variable {ε δ α β : Type} {stop : ε → Prop}

/-- From wherever `whole` runs, `part` runs in the same way, or it stops with an
error of some sort. -/
def Curtails (stop : ε → Prop) (part whole : ExceptT ε Program α) : Prop :=
  ∀ (S : Type) (step : Steps S) (s : S) (x : Except ε α) (s' : S),
    whole.run.Runs step s x s' →
    part.run.Runs step s x s' ∨ ∃ error m, stop error ∧ part.run.Runs step s (.error error) m

namespace Curtails

theorem refl (p : ExceptT ε Program α) : Curtails stop p p :=
  fun _ _ _ _ _ => Or.inl

theorem bind {p q : ExceptT ε Program α} {f g : α → ExceptT ε Program β}
    (first : Curtails stop p q)
    (second : ∀ value, Curtails stop (f value) (g value)) :
    Curtails stop (p >>= f) (q >>= g) := by
  intro S step s y s' ran
  obtain ⟨x, m, ran₁, ran₂⟩ := runs_exceptT_bind.mp ran
  rcases first S step s x m ran₁ with same | ⟨error, m', stops, cut⟩
  · rcases x with error | value
    · exact Or.inl (runs_exceptT_bind.mpr ⟨_, m, same, ran₂⟩)
    · rcases second value S step m y s' ran₂ with same' | ⟨error, m', stops, cut⟩
      · exact Or.inl (runs_exceptT_bind.mpr ⟨_, m, same, same'⟩)
      · exact Or.inr ⟨error, m', stops, runs_exceptT_bind.mpr ⟨_, m, same, cut⟩⟩
  · exact Or.inr ⟨error, m', stops, runs_exceptT_bind.mpr ⟨_, m', cut, rfl, rfl⟩⟩

theorem mapError {stop' : δ → Prop} {p q : ExceptT ε Program α} {f : ε → δ}
    (curtails : Curtails stop p q) (stops : ∀ error, stop error → stop' (f error)) :
    Curtails stop' (ExceptT.mk ((fun result => result.mapError f) <$> p.run))
      (ExceptT.mk ((fun result => result.mapError f) <$> q.run)) := by
  intro S step s y s' ran
  obtain ⟨x, inner, rfl⟩ := Program.runs_map.mp ran
  rcases curtails S step s x s' inner with same | ⟨error, m, stopped, cut⟩
  · exact Or.inl (Program.runs_map.mpr ⟨x, same, rfl⟩)
  · exact Or.inr ⟨f error, m, stops error stopped, Program.runs_map.mpr ⟨_, cut, rfl⟩⟩

end Curtails

namespace Propagation

variable {config : PropagationConfig}

/-- The errors of a propagation that comes too late. -/
def TooLate (error : ImpactError) : Prop := ∃ stage, error = .deadlineExceeded stage

theorem curtails_commit (late : Bool) (ids : List NodeId) :
    Curtails (· = .deadline) (commit late ids) (commit false ids) := by
  cases late with
  | true => exact fun _ _ s _ _ _ => Or.inr ⟨.deadline, s, rfl, rfl, rfl⟩
  | false => exact .refl _

theorem curtails_mark (late : Bool) (found : StoreProgram (List NodeId)) :
    Curtails (· = .deadline) (mark late found) (mark false found) :=
  .bind (.refl _) fun ids => curtails_commit late ids

theorem curtails_closeCalls (late : Nat → Bool) (fuel step : Nat) (frontier : List NodeId) :
    Curtails (· = .deadline) (closeCalls late fuel step frontier)
      (closeCalls (fun _ => false) fuel step frontier) := by
  induction fuel generalizing step frontier with
  | zero => exact .refl _
  | succ fuel ih =>
      refine .bind (.refl _) fun found => .bind (curtails_commit _ _) fun newly => ?_
      split
      · exact .refl _
      · exact .bind (ih _ _) fun _ => .refl _

theorem curtails_pass (late : Nat → Bool) (stage : Stage) :
    Curtails (· = .deadline) (pass late stage) (pass (fun _ => false) stage) := by
  cases stage with
  | allReachingSymbols => exact .bind (.refl _) fun _ => curtails_closeCalls late _ _ _
  | allProvidingLibraries =>
      refine .bind (curtails_mark _ _) fun _ => .bind (curtails_mark _ _) fun _ => ?_
      exact .bind (curtails_mark _ _) fun _ => .bind (curtails_mark _ _) fun _ => .refl _
  | _ => exact curtails_mark _ _

theorem curtails_execute (late : Stage → Nat → Bool) (stage : Stage) :
    Curtails TooLate (execute late stage) (execute timeless stage) :=
  (curtails_pass (late stage) stage).mapError fun _ stopped => ⟨stage, stopped ▸ rfl⟩

theorem curtails_runStages (late : Stage → Nat → Bool) (round : Nat) (stages : List Stage) :
    Curtails TooLate (runStages late round stages) (runStages timeless round stages) := by
  induction stages with
  | nil => exact .refl _
  | cons stage rest ih =>
      exact .bind (curtails_execute late stage) fun _ => .bind ih fun _ => .refl _

theorem curtails_runRounds (config : PropagationConfig) (fuel round : Nat) :
    Curtails TooLate (runRounds config fuel round) (runRounds config.untimed fuel round) := by
  induction fuel generalizing round with
  | zero => exact .refl _
  | succ fuel ih =>
      rw [runRounds, runRounds, config.untimed_inTime]
      refine .bind (curtails_runStages _ _ _) fun reports => ?_
      change Curtails _ _ (if (config.converge && _) = true then _ else _)
      split
      · exact .bind (ih _) fun _ => .refl _
      · exact .refl _

/-- Under a clock, a propagation does what it does without a deadline, or it comes too late. -/
theorem curtails_propagate (config : PropagationConfig) :
    Curtails TooLate (propagate config) (propagate config.untimed) := by
  rw [propagate, propagate, config.untimed_inTime]
  refine .bind (curtails_execute _ _) fun _ => .bind (curtails_runRounds config _ _) fun _ => ?_
  exact .refl _

end Propagation

end BlastRadius
