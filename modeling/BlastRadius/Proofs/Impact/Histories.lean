import BlastRadius.Proofs.Impact.Growth
import BlastRadius.Proofs.Parity.Resets

/-!
What a store holds after operations that were performed one after the other, from the store without
nodes. Each operation either keeps whatever its steps keep or removes the nodes of some kinds.
-/

namespace BlastRadius

theorem Operation.runs_removal {operation : Operation} {c c' : Contents}
    {x : Except ImpactError Answer} (valid : c.Valid) (removes : operation.removed ≠ [])
    (ran : operation.perform.run.Runs Contents.Tried c x c') :
    c' = c.withoutAll operation.removed := by
  have removal (kinds : List NodeKind)
      (ran : (Answer.removed <$> Query.resetKinds kinds).run.Runs Contents.Tried c x c') :
      c' = c.withoutAll (Query.withEndpoints kinds) :=
    (((leads_resetKinds kinds).map Answer.removed).unique_of_tried ran).2
  cases operation with
  | reset =>
      have leads : Leads Operation.reset.perform.run c (.ok .done) .empty :=
        (Leads.ofStore (Leads.call (q := .reset) rfl)).map fun _ => Answer.done
      exact (leads.unique_of_tried ran).2.trans valid.withoutAll_all.symm
  | resetKinds kinds => exact removal kinds ran
  | resetDomain domain => exact removal domain.kinds ran
  | _ => exact absurd rfl removes

theorem keepsBlock_removing {R : Contents → Contents → Prop} {kinds : List NodeKind}
    (removed : ∀ c, R c (c.withoutAll kinds)) : KeepsBlock R (Query.removing kinds) := by
  intro c x c' ran
  obtain ⟨rfl, rfl⟩ := (leads_removals kinds).unique_of_tried ran
  exact removed c

/-- Something that holds after a list was started by an element (`S`) and not ended by a later one,
each of which it outlasted (`Q`). -/
theorem since_iff {α : Type} {l : List α} {P : List α → Prop} {S : List α → α → Prop}
    {Q : α → Prop}
    (never : ¬ P [])
    (step : ∀ before x, before ++ [x] <+: l →
      (P (before ++ [x]) ↔ P before ∧ Q x ∨ S before x)) :
    P l ↔ ∃ before x after, l = before ++ x :: after ∧ S before x ∧
      ∀ y ∈ after, Q y := by
  induction l using List.reverseRecOn with
  | nil => simp [never]
  | append_singleton first last ih =>
      rw [step first last (List.prefix_refl _),
        ih fun before x among => step before x (among.trans (List.prefix_append _ _))]
      constructor
      · rintro (⟨⟨before, x, after, rfl, started, kept⟩, stays⟩ | started)
        · refine ⟨before, x, after ++ [last], by simp, started, fun y mem => ?_⟩
          rcases List.mem_append.mp mem with mem | mem
          · exact kept y mem
          · exact List.mem_singleton.mp mem ▸ stays
        · exact ⟨first, last, [], rfl, started, by simp⟩
      · rintro ⟨before, x, after, same, started, kept⟩
        rcases List.eq_nil_or_concat after with rfl | ⟨rest, y, rfl⟩
        · obtain ⟨rfl, one⟩ := List.append_inj' same rfl
          obtain rfl := List.singleton_inj.mp one
          exact Or.inr started
        · rw [List.concat_eq_append, ← List.cons_append, ← List.append_assoc] at same
          obtain ⟨rfl, one⟩ := List.append_inj' same rfl
          obtain rfl := List.singleton_inj.mp one
          refine Or.inl ⟨⟨before, x, rest, rfl, started, fun y mem => ?_⟩, ?_⟩
          · exact kept y (by simp [mem])
          · exact kept last (by simp)

namespace Medium

variable (medium : Medium)

/-- The state after operations. -/
def reached (operations : List Operation) : medium.State :=
  operations.foldl (fun s operation => (operation.on medium.store s).2) medium.initial

def contents (operations : List Operation) : Contents :=
  medium.view.holds (medium.reached operations)

/-- None of the operations asks for a node that the store cannot hold. -/
def Fits (operations : List Operation) : Prop :=
  ∀ before operation, before ++ [operation] <+: operations →
    medium.Suffices operation.perform.run (medium.reached before)

variable {medium} {operations : List Operation} {operation : Operation}

theorem Fits.before {others : List Operation} (fits : medium.Fits operations)
    (first : others <+: operations) : medium.Fits others :=
  fun before operation among => fits before operation (among.trans first)

theorem reached_append (operations : List Operation) (operation : Operation) :
    medium.reached (operations ++ [operation]) =
      (operation.on medium.store (medium.reached operations)).2 := by
  rw [reached, List.foldl_append]
  rfl

theorem contents_nil : medium.contents [] = .empty := medium.initial_holds

theorem performed (fits : medium.Fits (operations ++ [operation]))
    (sound : medium.view.sound (medium.reached operations)) :
    operation.perform.run.Runs Contents.Tried (medium.contents operations)
        (operation.on medium.store (medium.reached operations)).1
        (medium.contents (operations ++ [operation])) ∧
      medium.view.sound (medium.reached (operations ++ [operation])) := by
  rw [contents, contents, reached_append]
  exact medium.runs_tried _ sound (fits operations operation (List.prefix_refl _))

theorem reached_sound (fits : medium.Fits operations) :
    medium.view.sound (medium.reached operations) := by
  induction operations using List.reverseRecOn with
  | nil => exact medium.initial_sound
  | append_singleton before operation ih =>
      exact (performed fits (ih (fits.before (List.prefix_append _ _)))).2

theorem contents_valid (fits : medium.Fits operations) : (medium.contents operations).Valid :=
  medium.valid_of_sound (reached_sound fits)

theorem contents_kept {R : Contents → Contents → Prop} (kept : Kept R)
    (fits : medium.Fits (operations ++ [operation])) (nothing : operation.removed = []) :
    R (medium.contents operations) (medium.contents (operations ++ [operation])) := by
  have sound := reached_sound (fits.before (List.prefix_append _ _))
  have keeps : Keeps R operation.perform := by
    refine operation.keeps kept (fun kind mem => ?_) fun same => ?_
    · exact absurd (nothing ▸ mem) List.not_mem_nil
    · rw [same] at nothing
      cases nothing
  exact Program.Keeps.runs kept.refl kept.trans keeps (performed fits sound).1

/-- What holds without nodes and is kept by every step of every operation holds after operations. -/
theorem contents_invariant {I : Contents → Prop} (start : I .empty)
    (keeps : ∀ operation : Operation, Keeps (fun c c' => I c → I c') operation.perform)
    (fits : medium.Fits operations) : I (medium.contents operations) := by
  induction operations using List.reverseRecOn with
  | nil => rwa [contents_nil]
  | append_singleton before operation ih =>
      have first := fits.before (List.prefix_append before [operation])
      exact Program.Keeps.runs (R := fun c c' => I c → I c') (fun _ => id)
        (fun start rest => rest ∘ start) (keeps operation)
        (performed fits (reached_sound first)).1 (ih first)

theorem contents_removed (fits : medium.Fits (operations ++ [operation]))
    (removes : operation.removed ≠ []) : medium.contents (operations ++ [operation]) =
      (medium.contents operations).withoutAll operation.removed := by
  have before := fits.before (List.prefix_append _ _)
  exact Operation.runs_removal (contents_valid before) removes
    (performed fits (reached_sound before)).1

end Medium

end BlastRadius
