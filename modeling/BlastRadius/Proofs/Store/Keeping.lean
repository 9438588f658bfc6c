import BlastRadius.Inventory.Fixture
import BlastRadius.Proofs.Store.Composition
import BlastRadius.Proofs.Store.Runs
import BlastRadius.Propagation.Pass

/-!
The steps of programs. A step is a call outside a block, or a whole block. What is said of all steps
of a program is said whatever is answered, and so it also holds beside other programs.

A step may keep a relation between the states before and after it. The relation need not hold in the
middle of a block.
-/

namespace BlastRadius

variable {C : Call → Prop} {B : (β : Type) → Program (Except StoreError β) → Prop}

/-- Whatever is answered, each call outside a block is as `C` says, and each block as `B` says. -/
def Program.Each (C : Call → Prop) (B : (β : Type) → Program (Except StoreError β) → Prop) :
    {α : Type} → Program α → Prop
  | _, done _ => True
  | _, call q next => C q ∧ ∀ r, (next r).Each C B
  | _, atomically body next => B _ body ∧ ∀ r, (next r).Each C B

/-- Whatever is answered, each call is as `P` says, those in blocks included. -/
def Program.Only (P : Call → Prop) : {α : Type} → Program α → Prop
  | _, done _ => True
  | _, call q next => P q ∧ ∀ r, (next r).Only P
  | _, atomically body next => body.Only P ∧ ∀ r, (next r).Only P

namespace Program

variable {α β : Type}

theorem only_iff_each {P : Call → Prop} {p : Program α} :
    p.Only P ↔ p.Each P fun _ body => body.Only P := by
  induction p with
  | done value => exact Iff.rfl
  | call q next ih => exact and_congr_right fun _ => forall_congr' ih
  | atomically body next _ ih => exact and_congr_right fun _ => forall_congr' ih

theorem Only.and {P Q : Call → Prop} {p : Program α} (first : p.Only P) (second : p.Only Q) :
    p.Only fun q => P q ∧ Q q := by
  induction p with
  | done value => trivial
  | call q next ih => exact ⟨⟨first.1, second.1⟩, fun r => ih r (first.2 r) (second.2 r)⟩
  | atomically body next ihBody ih =>
      exact ⟨ihBody first.1 second.1, fun r => ih r (first.2 r) (second.2 r)⟩

theorem Each.mono {C' : Call → Prop}
    {B' : (β : Type) → Program (Except StoreError β) → Prop}
    {p : Program α} (each : p.Each C B) (calls : ∀ q, C q → C' q)
    (blocks : ∀ β body, B β body → B' β body) : p.Each C' B' := by
  induction p with
  | done value => trivial
  | call q next ih => exact ⟨calls q each.1, fun r => ih r (each.2 r)⟩
  | atomically body next _ ih => exact ⟨blocks _ body each.1, fun r => ih r (each.2 r)⟩

theorem Each.bind {p : Program α} {f : α → Program β} (first : p.Each C B)
    (second : ∀ x, (f x).Each C B) : (p >>= f).Each C B := by
  change (p.bind f).Each C B
  induction p with
  | done value => exact second value
  | call q next ih => exact ⟨first.1, fun r => ih r (first.2 r) second⟩
  | atomically body next _ ih => exact ⟨first.1, fun r => ih r (first.2 r) second⟩

theorem Each.map {p : Program α} (f : α → β) (each : p.Each C B) : (f <$> p).Each C B := by
  rw [map_eq_pure_bind]
  exact each.bind fun _ => trivial

end Program

section Keeping

variable {S : Type} {step : Steps S} {R : S → S → Prop}

/-- A call leads only to states to which the ones before it are related. -/
def CallKeeps (step : Steps S) (R : S → S → Prop) (q : Call) : Prop :=
  ∀ s r s', step s q r s' → R s s'

/-- A block, run as a whole, leads only to such states. -/
def BlockKeeps (step : Steps S) (R : S → S → Prop) (β : Type)
    (body : Program (Except StoreError β)) :
    Prop :=
  ∀ s x s', body.Runs step s x s' → R s (settled s s' x)

/-- Each step of a program leads only to such states. -/
abbrev Program.Keeps (step : Steps S) (R : S → S → Prop) {α : Type} (p : Program α) : Prop :=
  p.Each (CallKeeps step R) (BlockKeeps step R)

variable (refl : ∀ s, R s s) (trans : ∀ {a b c}, R a b → R b c → R a c)
include refl trans

theorem Program.Keeps.runs {α : Type} {p : Program α} (keeps : p.Keeps step R) {s s' : S} {x : α}
    (ran : p.Runs step s x s') : R s s' := by
  induction p generalizing s with
  | done value =>
      obtain ⟨rfl, rfl⟩ := ran
      exact refl _
  | call q next ih =>
      obtain ⟨r, m, stepped, rest⟩ := ran
      exact trans (keeps.1 s r m stepped) (ih r (keeps.2 r) rest)
  | atomically body next _ ih =>
      obtain ⟨r, m, inner, rest⟩ := ran
      exact trans (keeps.1 s r m inner) (ih r (keeps.2 r) rest)

/-- A block whose steps keep a relation keeps it as a whole. -/
theorem Program.Keeps.block {β : Type} {body : Program (Except StoreError β)}
    (keeps : body.Keeps step R) : BlockKeeps step R β body := by
  intro s x s' ran
  cases x with
  | ok value => exact keeps.runs refl trans ran
  | error error => exact refl s

theorem Program.Only.keeps {P : Call → Prop} (call : ∀ {q}, P q → CallKeeps step R q)
    {α : Type}
    {p : Program α} (only : p.Only P) : p.Keeps step R := by
  induction p with
  | done value => trivial
  | call q next ih => exact ⟨call only.1, fun r => ih r (only.2 r)⟩
  | atomically body next ihBody ih =>
      exact ⟨Program.Keeps.block refl trans (ihBody only.1), fun r => ih r (only.2 r)⟩

end Keeping

/-- The steps of a program that stops at an error are as `C` and `B` say. -/
def EachStep (C : Call → Prop) (B : (β : Type) → Program (Except StoreError β) → Prop)
    {ε α : Type} (p : ExceptT ε Program α) : Prop :=
  p.run.Each C B

namespace EachStep

variable {ε δ α β τ : Type}

theorem pure (x : α) : EachStep C B (pure x : ExceptT ε Program α) := trivial

theorem throw (error : ε) : EachStep C B (MonadExcept.throw error : ExceptT ε Program α) :=
  trivial

theorem bind {p : ExceptT ε Program α} {f : α → ExceptT ε Program β} (first : EachStep C B p)
    (second : ∀ x, EachStep C B (f x)) : EachStep C B (p >>= f) := by
  rw [EachStep, ExceptT.run_bind]
  refine Program.Each.bind first fun x => ?_
  cases x with
  | ok x => exact second x
  | error error => trivial

theorem map {p : ExceptT ε Program α} (f : α → β) (each : EachStep C B p) :
    EachStep C B (f <$> p) := by
  rw [EachStep, ExceptT.run_map]
  exact Program.Each.map _ each

theorem call {q : Call} (allowed : C q) : EachStep C B (StoreProgram.call q) :=
  ⟨allowed, fun _ => trivial⟩

theorem atomically {body : StoreProgram β} (allowed : B β body.run) :
    EachStep C B (StoreProgram.atomically body) :=
  ⟨allowed, fun _ => trivial⟩

theorem mapError {p : ExceptT ε Program α} (f : ε → δ) (each : EachStep C B p) :
    EachStep C B (ExceptT.mk ((fun result => result.mapError f) <$> p.run)) :=
  Program.Each.map _ each

theorem ofStore {p : StoreProgram α} (each : EachStep C B p) :
    EachStep C B (ImpactProgram.ofStore p) :=
  each.mapError ImpactError.store

theorem ofResult (result : Except ImpactError α) :
    EachStep C B (ImpactProgram.ofResult result) := trivial

theorem require (holds : Bool) (reason : String) :
    EachStep C B (ImpactProgram.require holds reason) := by
  rw [ImpactProgram.require]
  split
  · exact .pure ()
  · exact .throw _

theorem attempt {p : ImpactProgram α} (each : EachStep C B p) :
    EachStep C B (ImpactProgram.attempt p) :=
  Program.Each.map _ each

theorem requiring {holds : Bool} {reason : String} {next : Unit → ImpactProgram α}
    (rest : holds = true → EachStep C B (next ())) :
    EachStep C B (ImpactProgram.require holds reason >>= next) := by
  cases holds with
  | true => exact rest rfl
  | false => trivial

theorem mergeNode {node : Node} (look : ∀ key, EachStep C B (StoreProgram.call (.findNode key)))
    (inserted : EachStep C B (StoreProgram.call (.insertNode node))) :
    EachStep C B (StoreProgram.mergeNode node) := by
  have insertion : EachStep C B (do
      let id ← StoreProgram.call (.insertNode node)
      return (id, true)) := inserted.bind fun id => .pure (id, true)
  rw [StoreProgram.mergeNode]
  split
  · exact insertion
  · refine (look _).bind fun known => ?_
    cases known with
    | some id => exact .pure (id, false)
    | none =>
        refine Program.Each.bind (p := ExceptT.run (do
          let id ← StoreProgram.call (.insertNode node)
          return (id, true))) insertion fun result => ?_
        cases result with
        | ok value => trivial
        | error error =>
            change EachStep C B (ite (error.isUniqueViolation = true) (_ : StoreProgram _)
              (_ : StoreProgram _))
            split
            · refine (look _).bind fun known => ?_
              cases known with
              | some id => exact .pure (id, false)
              | none => exact .throw error
            · exact .throw error

theorem composes : StoreProgram.Composes fun _ (p : StoreProgram _) => EachStep C B p where
  pure value := .pure value
  bind first second := .bind first second
  merge look inserted := .mergeNode look inserted

theorem each {f : τ → StoreProgram α} {l : List τ} (all : ∀ t ∈ l, EachStep C B (f t)) :
    EachStep C B (StoreProgram.each f l) :=
  composes.each all

theorem gather {f : τ → StoreProgram (List α)} {l : List τ} (all : ∀ t, EachStep C B (f t)) :
    EachStep C B (StoreProgram.gather f l) :=
  composes.gather all

theorem forEach {f : τ → ImpactProgram α} {l : List τ} (all : ∀ t, EachStep C B (f t)) :
    EachStep C B (Inventory.forEach f l) := by
  induction l with
  | nil => exact .pure ()
  | cons t rest ih => exact (all t).bind fun _ => ih

theorem collect {describe : τ → String} {act : τ → ImpactProgram α} {l : List τ}
    {outcomes : Outcomes α} (all : ∀ t, EachStep C B (act t)) :
    EachStep C B (ImpactProgram.collect describe act outcomes l) := by
  induction l generalizing outcomes with
  | nil => exact .pure outcomes
  | cons t rest ih => exact (all t).attempt.bind fun _ => ih

end EachStep

end BlastRadius
