import BlastRadius.Impact.Program

/-!
Properties of store programs that are inherited by what is built from the programs that have them.
-/

namespace BlastRadius.StoreProgram

/-- A property that a sequence of programs has when each of them has it. -/
structure Sequences (P : (α : Type) → StoreProgram α → Prop) : Prop where
  pure {α : Type} (value : α) : P α (pure value)
  bind {α β : Type} {p : StoreProgram β} {next : β → StoreProgram α} :
    P β p → (∀ value, P α (next value)) → P α (p >>= next)

/-- A property that a program has when its parts have it. -/
structure Composes (P : (α : Type) → StoreProgram α → Prop) : Prop extends Sequences P where
  merge {node : Node} : (∀ key, P _ (call (.findNode key))) → P _ (call (.insertNode node)) →
    P _ (mergeNode node)

namespace Sequences

variable {P : (α : Type) → StoreProgram α → Prop} (composes : Sequences P) {α β τ : Type}
include composes

theorem map {p : StoreProgram α} (f : α → β) (first : P α p) : P β (f <$> p) := by
  rw [map_eq_pure_bind]
  exact composes.bind first fun value => composes.pure (f value)

theorem each {f : τ → StoreProgram α} {l : List τ} (all : ∀ t ∈ l, P α (f t)) :
    P _ (StoreProgram.each f l) := by
  induction l with
  | nil => exact composes.pure []
  | cons t rest ih =>
      apply composes.bind (all t List.mem_cons_self)
      intro value
      apply composes.bind (ih fun u mem => all u (List.mem_cons_of_mem t mem))
      exact fun values => composes.pure (value :: values)

theorem gather {f : τ → StoreProgram (List α)} {l : List τ} (all : ∀ t, P _ (f t)) :
    P _ (StoreProgram.gather f l) := by
  induction l with
  | nil => exact composes.pure []
  | cons t rest ih =>
      apply composes.bind (all t)
      intro found
      exact composes.bind ih fun others => composes.pure (found ++ others)

theorem first? {p : τ → StoreProgram Bool} {l : List τ} (all : ∀ t, P _ (p t)) :
    P _ (StoreProgram.first? p l) := by
  induction l with
  | nil => exact composes.pure none
  | cons t rest ih =>
      apply composes.bind (all t)
      rintro (_ | _)
      · exact ih
      · exact composes.pure (some t)

theorem keep {p : τ → StoreProgram Bool} {l : List τ} (all : ∀ t, P _ (p t)) :
    P _ (StoreProgram.keep p l) := by
  induction l with
  | nil => exact composes.pure []
  | cons t rest ih =>
      apply composes.bind (all t)
      intro holds
      exact composes.bind ih fun others => composes.pure (if holds then t :: others else others)

end Sequences

end BlastRadius.StoreProgram
