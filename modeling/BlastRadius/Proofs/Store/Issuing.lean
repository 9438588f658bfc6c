import BlastRadius.Proofs.Store.Reading
import BlastRadius.Proofs.Store.Scripted

/-!
Which calls a program makes on a store, and what it answers when one of them fails. For a program
without blocks that stops at the first failed call this is a list of calls, each with the error that
is reported for it.
-/

namespace BlastRadius

variable {σ α β ε δ : Type} {store : Store σ}

/-- The calls that a program makes outside blocks, in their order. -/
def Program.calls (store : Store σ) : {α : Type} → Program α → σ → List Call
  | _, done _, _ => []
  | _, call q next, s => q :: (next (store.call q s).1).calls store (store.call q s).2
  | _, atomically body next, s =>
      (next (store.atomically (fun inner => body.run store inner) s).1).calls store
        (store.atomically (fun inner => body.run store inner) s).2

def Store.after (store : Store σ) (calls : List Call) (s : σ) : σ :=
  calls.foldl (fun s q => (store.call q s).2) s

/-- A program makes these calls and has no blocks. When one of the calls fails, the program is over
and answers as said beside the call. -/
def Program.Issues (store : Store σ) :
    {α : Type} → Program α → σ → List (Call × (StoreError → α)) → Prop
  | _, done _, _, l => l = []
  | _, call q next, s, l => ∃ answer rest, l = (q, answer) :: rest ∧
      (∀ error, next (.error error) = done (answer error)) ∧
      (next (store.call q s).1).Issues store (store.call q s).2 rest
  | _, atomically _ _, _, _ => False

namespace Program.Issues

theorem calls_eq {p : Program α} {s : σ} {l : List (Call × (StoreError → α))}
    (issues : p.Issues store s l) : p.calls store s = l.map Prod.fst := by
  induction p generalizing s with
  | done value =>
      obtain rfl := issues
      rfl
  | call q next ih =>
      obtain ⟨answer, rest, rfl, _, later⟩ := issues
      exact congrArg (q :: ·) (ih _ later)
  | atomically body next _ _ => exact absurd issues id

/-- When a call fails, the program ends with the answer for it, in the state
after the calls before. -/
theorem run_of_fault {p : Program α} {s : σ} {l : List (Call × (StoreError → α))}
    (issues : p.Issues store s l) {k : Nat} {q : Call} {answer : StoreError → α}
    (here : l[k]? = some (q, answer)) {script : Nat → Option StoreError} {position : Nat}
    {error : StoreError} (before : ∀ i < k, script (position + i) = none)
    (fails : script (position + k) = some error) :
    let stopped := p.run (Scripted.store store) ⟨s, script, position⟩
    stopped.1 = answer error ∧ stopped.2.inner = store.after ((p.calls store s).take k) s := by
  induction p generalizing s k position with
  | done value =>
      obtain rfl := issues
      cases here
  | call q' next ih =>
      obtain ⟨answer', rest, rfl, stops, later⟩ := issues
      cases k with
      | zero =>
          cases here
          have failed : script position = some error := fails
          rw [Program.run, Scripted.call_of_some failed, stops]
          exact ⟨rfl, rfl⟩
      | succ k =>
          have answered : script position = none := before 0 (Nat.zero_lt_succ k)
          rw [Program.run, Scripted.call_of_none answered]
          refine ih _ later here (fun i less => ?_) ?_
          · rw [Nat.add_assoc, Nat.add_comm 1 i]
            exact before (i + 1) (Nat.succ_lt_succ less)
          · rwa [Nat.add_assoc, Nat.add_comm 1 k]
  | atomically body next _ _ => exact absurd issues id

theorem bind {p : Program α} {f : α → Program β} {s : σ}
    {l : List (Call × (StoreError → α))}
    {m l' : List (Call × (StoreError → β))} (issues : p.Issues store s l)
    (hands : List.Forall₂ (fun a b => a.1 = b.1 ∧
      ∀ error, f (a.2 error) = done (b.2 error)) l m)
    (later : (f (p.run store s).1).Issues store (p.run store s).2 l') :
    (p >>= f).Issues store s (m ++ l') := by
  change (p.bind f).Issues store s (m ++ l')
  induction p generalizing s m with
  | done value =>
      obtain rfl := issues
      cases hands
      exact later
  | call q next ih =>
      obtain ⟨answer, rest, rfl, stops, issues⟩ := issues
      cases hands with
      | @cons _ b _ m same hands =>
          obtain ⟨rfl, same⟩ := same
          refine ⟨b.2, m ++ l', rfl, fun error => ?_, ih _ issues hands later⟩
          exact (congrArg (Program.bind · f) (stops error)).trans (same error)
  | atomically body next _ _ => exact absurd issues id

/-- Wherever a run is cut off, it holds what is so on the whole way without faults. -/
theorem cut_of_through {view : View σ} (faithful : store.Faithful view) {I : Contents → Prop}
    {p : Program α} {s : σ} {l : List (Call × (StoreError → α))} (issues : p.Issues store s l)
    (sound : view.sound s) (here : I (view.holds s)) {x : α} {c' : Contents}
    (through : Through I p (view.holds s) x c') (script : Nat → Option StoreError)
    (position : Nat) :
    let stopped := p.run (Scripted.store store) ⟨s, script, position⟩
    view.sound stopped.2.inner ∧ I (view.holds stopped.2.inner) := by
  induction p generalizing s c' position with
  | done value => exact ⟨sound, here⟩
  | call q next ih =>
      obtain ⟨answer, rest, rfl, stops, later⟩ := issues
      obtain ⟨r, m, ⟨determined, _, there⟩, through⟩ := through
      obtain ⟨rfl, rfl, sound'⟩ := faithful.call_of_determined sound determined
      rcases scripted : script position with _ | error
      · rw [Program.run, Scripted.call_of_none scripted]
        exact ih _ later sound' there through (position + 1)
      · rw [Program.run, Scripted.call_of_some scripted, stops]
        exact ⟨sound, here⟩
  | atomically body next _ _ => exact absurd issues id

end Program.Issues

theorem Program.Each.calls {C : Call → Prop}
    {B : (β : Type) → Program (Except StoreError β) → Prop}
    {p : Program α} (each : p.Each C B) (s : σ) : ∀ q ∈ p.calls store s, C q := by
  induction p generalizing s with
  | done value => exact fun q mem => absurd mem List.not_mem_nil
  | call q next ih => exact List.forall_mem_cons.mpr ⟨each.1, ih _ (each.2 _) _⟩
  | atomically body next _ ih => exact ih _ (each.2 _) _

/-- What follows on success. -/
def onSuccess {τ : Type} (outcome : Except ε α × σ) (next : α → σ → List τ) : List τ :=
  match outcome with
  | (.ok value, s) => next value s
  | (.error _, _) => []

theorem map_onSuccess {τ ρ : Type} (g : τ → ρ) (outcome : Except ε α × σ)
    (next : α → σ → List τ) :
    (onSuccess outcome next).map g = onSuccess outcome fun value s => (next value s).map g := by
  rcases outcome with ⟨error | value, s⟩ <;> rfl

/-- A program that stops at an error makes these calls. When one of them fails, the program fails
with the error as it is reported beside the call. -/
def FailsAs (store : Store σ) (p : ExceptT ε Program α) (s : σ)
    (l : List (Call × (StoreError → ε))) :
    Prop :=
  p.run.Issues store s (l.map fun (q, report) => (q, fun error => .error (report error)))

namespace FailsAs

variable {s : σ} {l : List (Call × (StoreError → ε))}

theorem pure (x : α) : FailsAs store (pure x : ExceptT ε Program α) s [] := rfl

theorem throw (error : ε) : FailsAs store (MonadExcept.throw error : ExceptT ε Program α) s [] :=
  rfl

theorem call (q : Call) : FailsAs store (StoreProgram.call q) s [(q, id)] :=
  ⟨_, [], rfl, fun _ => rfl, rfl⟩

theorem bind {p : ExceptT ε Program α} {f : α → ExceptT ε Program β}
    {next : α → σ → List (Call × (StoreError → ε))} (first : FailsAs store p s l)
    (second : ∀ x s', p.run.run store s = (.ok x, s') → FailsAs store (f x) s' (next x s')) :
    FailsAs store (p >>= f) s (l ++ onSuccess (p.run.run store s) next) := by
  rw [FailsAs, ExceptT.run_bind, List.map_append, map_onSuccess]
  refine Program.Issues.bind first ?_ ?_
  · rw [List.forall₂_map_left_iff, List.forall₂_map_right_iff, List.forall₂_same]
    exact fun _ _ => ⟨rfl, fun _ => rfl⟩
  · rcases ran : p.run.run store s with ⟨error | x, s'⟩
    · rfl
    · exact second x s' ran

theorem map {p : ExceptT ε Program α} (f : α → β) (fails : FailsAs store p s l) :
    FailsAs store (p >>= fun x => Pure.pure (f x)) s l := by
  have nothing : onSuccess (p.run.run store s)
      (fun _ _ => ([] : List (Call × (StoreError → ε)))) = [] := by
    rcases p.run.run store s with ⟨error | x, s'⟩ <;> rfl
  have mapped := fails.bind fun x s' _ => pure (f x)
  rwa [nothing, List.append_nil] at mapped

theorem mapError {p : ExceptT ε Program α} (g : ε → δ) (fails : FailsAs store p s l) :
    FailsAs store (ExceptT.mk ((fun result => result.mapError g) <$> p.run)) s
      (l.map fun (q, report) => (q, fun error => g (report error))) := by
  rw [FailsAs, ExceptT.run_mk, map_eq_pure_bind, List.map_map, ← List.append_nil (l.map _)]
  refine Program.Issues.bind fails ?_ rfl
  rw [List.forall₂_map_left_iff, List.forall₂_map_right_iff, List.forall₂_same]
  exact fun _ _ => ⟨rfl, fun _ => rfl⟩

theorem calls_eq {p : ExceptT ε Program α} (fails : FailsAs store p s l) :
    p.run.calls store s = l.map Prod.fst := by
  rw [Program.Issues.calls_eq fails, List.map_map]
  rfl

/-- The call with this number fails, counted from zero, and those before it do not. -/
theorem run_of_fault {p : ExceptT ε Program α} (fails : FailsAs store p s l) {k : Nat} {q : Call}
    {report : StoreError → ε} (here : l[k]? = some (q, report))
    {script : Nat → Option StoreError}
    {error : StoreError} (before : ∀ i < k, script i = none) (fault : script k = some error) :
    let stopped := p.run.run (Scripted.store store) ⟨s, script, 0⟩
    stopped.1 = .error (report error) ∧
      stopped.2.inner = store.after ((p.run.calls store s).take k) s := by
  have entry := congrArg (Option.map fun (q, report) =>
    ((q, fun error => .error (report error)) : Call × (StoreError → Except ε α))) here
  rw [← List.getElem?_map] at entry
  refine Program.Issues.run_of_fault fails entry (fun i less => ?_) ?_
  · rw [Nat.zero_add]
    exact before i less
  · rwa [Nat.zero_add]

end FailsAs

/-- Whatever the state, a program fails with the error of the first call that
fails, under one name. -/
def Stops (store : Store σ) (report : StoreError → ε) (p : ExceptT ε Program α) : Prop :=
  ∀ s, FailsAs store p s ((p.run.calls store s).map fun q => (q, report))

namespace Stops

variable {report : StoreError → ε}

theorem of_exists {p : ExceptT ε Program α} (fails : ∀ s, ∃ calls : List Call,
    FailsAs store p s (calls.map fun q => (q, report))) : Stops store report p := by
  intro s
  obtain ⟨calls, fails⟩ := fails s
  have same : p.run.calls store s = calls := by
    rw [fails.calls_eq, List.map_map]
    exact List.map_id calls
  rwa [same]

theorem pure (x : α) : Stops store report (pure x : ExceptT ε Program α) :=
  fun _ => FailsAs.pure x

theorem throw (error : ε) : Stops store report (MonadExcept.throw error : ExceptT ε Program α) :=
  fun _ => FailsAs.throw error

theorem call (q : Call) : Stops store id (StoreProgram.call q) := fun _ => FailsAs.call q

theorem bind {p : ExceptT ε Program α} {f : α → ExceptT ε Program β}
    (first : Stops store report p)
    (second : ∀ x, Stops store report (f x)) : Stops store report (p >>= f) := by
  refine of_exists fun s => ⟨p.run.calls store s ++
    onSuccess (p.run.run store s) fun x s' => (f x).run.calls store s', ?_⟩
  rw [List.map_append, map_onSuccess]
  exact (first s).bind fun x s' _ => second x s'

theorem mapError {p : ExceptT ε Program α} (g : ε → δ) (stops : Stops store report p) :
    Stops store (fun error => g (report error))
      (ExceptT.mk ((fun result => result.mapError g) <$> p.run)) := by
  refine of_exists fun s => ⟨p.run.calls store s, ?_⟩
  have mapped := (stops s).mapError g
  rwa [List.map_map] at mapped

end Stops

end BlastRadius
