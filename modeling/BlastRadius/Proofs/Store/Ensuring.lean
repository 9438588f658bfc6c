import BlastRadius.Proofs.Parity.Steps
import BlastRadius.Proofs.Store.Exhaustion

/-!
Conditions under which a program answers and leaves what is wanted, whichever identifiers new nodes
take. The contents in which a node may be asked for, and those in which it may be refused because
identifiers have run out, are parameters: one set of rules serves runs that may be refused and runs
that are shown to have enough identifiers.
-/

namespace BlastRadius

/-- How identifiers are supplied. -/
structure Supply where
  /-- The contents in which a node may be asked for. -/
  spare : Contents → Prop
  /-- The contents in which a node may be refused. -/
  short : Contents → Prop

namespace Supply

/-- What a store may answer and hold afterwards. -/
def Step (supply : Supply) : Steps Contents := fun c q r c' =>
  c.Step q r c' ∨ q.inserts = true ∧ (∃ row, r = .error (.idOverflow row)) ∧
    supply.short c ∧ c' = c

/-- Nodes are asked for at any time and may be refused when identifiers have run out. -/
def trying : Supply := ⟨fun _ => True, Contents.Exhausted⟩

/-- Nodes are asked for only below a bound on their number, and never refused. -/
def upTo (bound : Nat) : Supply := ⟨fun c => c.live.ncard < bound, fun _ => False⟩

variable {supply : Supply}

theorem Step.insert_cases {c c' : Contents} {node : Node} {x : Except StoreError NodeId}
    (step : supply.Step c (.insertNode node) x c')
    (free : ∀ key, node.key? = some key → c.keyed key = ∅) :
    (∃ id, c.node? id = none ∧ x = .ok id ∧ c' = c.insert id node) ∨
    ∃ row, x = .error (.idOverflow row) ∧ supply.short c ∧ c' = c := by
  rcases step with step | ⟨_, ⟨row, rfl⟩, short, rfl⟩
  · exact Or.inl (step_insertNode_of_free free step)
  · exact Or.inr ⟨row, rfl, short, rfl⟩

end Supply

/-- From some contents a program asks for nodes only where it may, and answers and
leaves what is wanted. -/
def Program.Ensures (supply : Supply) :
    {α : Type} → Program α → Contents → (α → Contents → Prop) → Prop
  | _, done value, c, Q => Q value c
  | _, call q next, c, Q => (q.inserts = true → supply.spare c) ∧
      ∀ r c', supply.Step c q r c' → (next r).Ensures supply c' Q
  | _, atomically body next, c, Q =>
      body.Ensures supply c fun r m => (next r).Ensures supply (settled c m r) Q

namespace Program

variable {α β : Type} {supply : Supply} {c c' : Contents} {Q R : α → Contents → Prop}
    {p : Program α}

theorem Ensures.mono (ensures : p.Ensures supply c Q) (weaker : ∀ x m, Q x m → R x m) :
    p.Ensures supply c R := by
  induction p generalizing c with
  | done value => exact weaker value c ensures
  | call q next ih => exact ⟨ensures.1, fun r m step => ih r (ensures.2 r m step) weaker⟩
  | atomically body next ihBody ih =>
      exact ihBody ensures fun r m rest => ih r rest weaker

theorem ensures_bind {f : α → Program β} {Q : β → Contents → Prop} :
    (p >>= f).Ensures supply c Q ↔
      p.Ensures supply c fun x m => (f x).Ensures supply m Q := by
  change (p.bind f).Ensures supply c Q ↔ _
  induction p generalizing c with
  | done value => exact Iff.rfl
  | call q next ih => exact and_congr_right fun _ => forall₃_congr fun r m _ => ih r
  | atomically body next _ ih =>
      have same : (fun r m => ((next r).bind f).Ensures supply (settled c m r) Q) =
          fun r m => (next r).Ensures supply (settled c m r) fun x m' =>
            (f x).Ensures supply m' Q :=
        funext₂ fun r m => propext (ih r)
      rw [Program.bind, Ensures, Ensures, same]

/-- Every run that the supply allows answers and leaves what is wanted. -/
theorem Ensures.runs (ensures : p.Ensures supply c Q) {x : α} (ran : p.Runs supply.Step c x c') :
    Q x c' := by
  induction p generalizing c c' with
  | done value =>
      obtain ⟨rfl, rfl⟩ := ran
      exact ensures
  | call q next ih =>
      obtain ⟨r, m, step, rest⟩ := ran
      exact ih r (ensures.2 r m step) rest
  | atomically body next ihBody ih =>
      obtain ⟨r, m, inner, rest⟩ := ran
      exact ih r (ihBody ensures inner) rest

theorem Ensures.of_runs (always : ∀ x m, p.Runs Contents.Tried c x m → Q x m) :
    p.Ensures .trying c Q := by
  induction p generalizing c with
  | done value => exact always value c ⟨rfl, rfl⟩
  | call q next ih =>
      exact ⟨fun _ => trivial, fun r m step => ih r fun x m' ran =>
        always x m' ⟨r, m, step, ran⟩⟩
  | atomically body next ihBody ih =>
      exact ihBody fun r m inner => ih r fun x m' ran => always x m' ⟨r, m, inner, ran⟩

theorem Ensures.of_leads {x : α} (leads : Leads p c x c') (wanted : Q x c') :
    p.Ensures supply c Q := by
  induction p generalizing c c' with
  | done value =>
      obtain ⟨rfl, rfl⟩ := leads
      exact wanted
  | call q next ih =>
      obtain ⟨r, m, determined, rest⟩ := leads
      have asks : ¬ q.inserts = true := by
        rintro inserts
        cases q with
        | insertNode node => cases determined
        | _ => cases inserts
      refine ⟨fun inserts => absurd inserts asks, fun r' m' step => ?_⟩
      rcases step with step | ⟨inserts, _⟩
      · obtain ⟨rfl, rfl⟩ := determined.unique step
        exact ih r' rest wanted
      · exact absurd inserts asks
  | atomically body next ihBody ih =>
      obtain ⟨r, m, inner, rest⟩ := leads
      exact ihBody inner (ih r rest wanted)

end Program

/-- What a program that stops at an error ensures. -/
def Ensures (supply : Supply) {ε α : Type} (p : ExceptT ε Program α) (c : Contents)
    (Q : Except ε α → Contents → Prop) : Prop :=
  p.run.Ensures supply c Q

namespace Ensures

variable {ε δ α β τ : Type} {supply : Supply} {c m : Contents}

section Rules

variable {p : ExceptT ε Program α} {P Q : Except ε α → Contents → Prop}

theorem mono (ensures : Ensures supply p c P) (weaker : ∀ x m, P x m → Q x m) :
    Ensures supply p c Q :=
  Program.Ensures.mono ensures weaker

theorem pure {value : α} (wanted : Q (.ok value) c) :
    Ensures supply (pure value : ExceptT ε Program α) c Q := wanted

theorem throw {error : ε} (wanted : Q (.error error) c) :
    Ensures supply (MonadExcept.throw error : ExceptT ε Program α) c Q := wanted

theorem of_leads {x : Except ε α} (leads : Leads p.run c x m) (wanted : Q x m) :
    Ensures supply p c Q :=
  Program.Ensures.of_leads leads wanted

theorem bind {f : α → ExceptT ε Program β} {Q : Except ε β → Contents → Prop}
    (first : Ensures supply p c P) (ok : ∀ value m, P (.ok value) m →
      Ensures supply (f value) m Q)
    (error : ∀ e m, P (.error e) m → Q (.error e) m) : Ensures supply (p >>= f) c Q := by
  rw [Ensures, ExceptT.run_bind, Program.ensures_bind]
  refine Program.Ensures.mono first fun x m holds => ?_
  cases x with
  | ok value => exact ok value m holds
  | error e => exact error e m holds

theorem leads_bind {f : α → ExceptT ε Program β} {Q : Except ε β → Contents → Prop}
    {value : α}
    (first : Leads p.run c (.ok value) m) (rest : Ensures supply (f value) m Q) :
    Ensures supply (p >>= f) c Q := by
  refine bind (P := fun x m' => x = .ok value ∧ m' = m) (of_leads first ⟨rfl, rfl⟩) ?_ ?_
  · rintro _ _ ⟨⟨⟩, rfl⟩
    exact rest
  · rintro _ _ ⟨⟨⟩, _⟩

theorem map {f : α → β} {Q : Except ε β → Contents → Prop}
    (ensures : Ensures supply p c fun x m => Q (x.map f) m) : Ensures supply (f <$> p) c Q := by
  rw [Ensures, ExceptT.run_map, map_eq_pure_bind, Program.ensures_bind]
  exact ensures

theorem mapError {f : ε → δ} {Q : Except δ α → Contents → Prop}
    (ensures : Ensures supply p c fun x m => Q (x.mapError f) m) :
    Ensures supply (ExceptT.mk ((fun result => result.mapError f) <$> p.run)) c Q := by
  rw [Ensures, ExceptT.run_mk, map_eq_pure_bind, Program.ensures_bind]
  exact ensures

end Rules

theorem ofStore {p : StoreProgram α} {Q : Except ImpactError α → Contents → Prop}
    (ensures : Ensures supply p c fun x m => Q (x.mapError ImpactError.store) m) :
    Ensures supply (ImpactProgram.ofStore p) c Q :=
  ensures.mapError

theorem atomically {body : StoreProgram β} {Q : Except StoreError β → Contents → Prop}
    (ensures : Ensures supply body c fun x m => Q x (settled c m x)) :
    Ensures supply (StoreProgram.atomically body) c Q :=
  ensures

theorem require {holds : Bool} {reason : String} {next : Unit → ImpactProgram α}
    {Q : Except ImpactError α → Contents → Prop}
    (refused : holds = false → Q (.error (.invalid reason)) c)
    (rest : holds = true → Ensures supply (next ()) c Q) :
    Ensures supply (ImpactProgram.require holds reason >>= next) c Q := by
  cases holds with
  | true => exact leads_bind (.pure ()) (rest rfl)
  | false => exact of_leads (Leads.throw (ImpactError.invalid reason)).bind_error (refused rfl)

theorem insertNode {node : Node} {Q : Except StoreError NodeId → Contents → Prop}
    (free : ∀ key, node.key? = some key → c.keyed key = ∅) (spare : supply.spare c)
    (inserted : ∀ id, c.node? id = none → Q (.ok id) (c.insert id node))
    (refused : supply.short c → ∀ row, Q (.error (.idOverflow row)) c) :
    Ensures supply (StoreProgram.call (.insertNode node)) c Q := by
  refine ⟨fun _ => spare, fun x m step => ?_⟩
  rcases step.insert_cases free with ⟨id, fresh, rfl, rfl⟩ | ⟨row, rfl, short, rfl⟩
  · exact inserted id fresh
  · exact refused short row

theorem mergeNode (valid : c.Valid) {node : Node} {key : NodeKey} (keyed : node.key? = some key)
    {Q : Except StoreError (NodeId × Bool) → Contents → Prop}
    (found : ∀ id ∈ c.keyed key, Q (.ok (id, false)) c)
    (spare : c.keyed key = ∅ → supply.spare c)
    (inserted : c.keyed key = ∅ → ∀ id, c.node? id = none →
      Q (.ok (id, true)) (c.insert id node))
    (refused : c.keyed key = ∅ → supply.short c → ∀ row, Q (.error (.idOverflow row)) c) :
    Ensures supply (StoreProgram.mergeNode node) c Q := by
  rw [StoreProgram.mergeNode, keyed]
  refine leads_bind (Reads.findNode key) ?_
  cases known : c.find? key with
  | some id => exact pure (found id (valid.find?_eq_some.mp known))
  | none =>
      have free := Contents.find?_eq_none.mp known
      have insertion : Ensures supply (do
          let id ← StoreProgram.call (.insertNode node)
          return (id, true)) c fun x m =>
            (∃ id, c.node? id = none ∧ x = .ok (id, true) ∧ m = c.insert id node) ∨
            ∃ row, x = .error (.idOverflow row) ∧ supply.short c ∧ m = c := by
        refine bind (insertNode (Q := fun x m =>
          (∃ id, c.node? id = none ∧ x = .ok id ∧ m = c.insert id node) ∨
          ∃ row, x = .error (.idOverflow row) ∧ supply.short c ∧ m = c) ?_ (spare free) ?_ ?_)
            ?_ ?_
        · intro key' own
          rw [keyed, Option.some.injEq] at own
          exact own ▸ free
        · exact fun id fresh => Or.inl ⟨id, fresh, rfl, rfl⟩
        · exact fun short row => Or.inr ⟨row, rfl, short, rfl⟩
        · rintro value _ (⟨id, fresh, same, rfl⟩ | ⟨_, ⟨⟩, _⟩)
          cases same
          exact pure (Or.inl ⟨value, fresh, rfl, rfl⟩)
        · rintro _ _ (⟨_, _, ⟨⟩, _⟩ | ⟨row, ⟨⟩, short, rfl⟩)
          exact Or.inr ⟨row, rfl, short, rfl⟩
      refine (Program.ensures_bind (p := ExceptT.run (do
        let id ← StoreProgram.call (.insertNode node)
        return (id, true)))).mpr (Program.Ensures.mono insertion fun x m outcome => ?_)
      rcases outcome with ⟨id, fresh, rfl, rfl⟩ | ⟨row, rfl, short, rfl⟩
      · exact inserted free id fresh
      · exact refused free short row

theorem collect {describe : τ → String} {act : τ → ImpactProgram α} {targets : List τ}
    {J : List τ → Outcomes α → Contents → Prop} {tried : List τ} {outcomes : Outcomes α}
    (start : J tried outcomes c)
    (step : ∀ tried target outcomes m, target ∈ targets → J tried outcomes m →
      Ensures supply (act target) m fun x m' =>
        J (tried ++ [target]) (outcomes.record (describe target) x) m') :
    Ensures supply (ImpactProgram.collect describe act outcomes targets) c fun x m =>
      ∃ outcomes, x = .ok outcomes ∧ J (tried ++ targets) outcomes m := by
  induction targets generalizing tried outcomes c with
  | nil => exact pure ⟨outcomes, rfl, by rwa [List.append_nil]⟩
  | cons target rest ih =>
      rw [ImpactProgram.collect]
      have first := step tried target outcomes c List.mem_cons_self start
      refine bind (P := fun x m => ∃ result, x = .ok result ∧
        J (tried ++ [target]) (outcomes.record (describe target) result) m) ?_ ?_ ?_
      · rw [Ensures, ImpactProgram.attempt, ExceptT.run_mk, map_eq_pure_bind, Program.ensures_bind]
        exact Program.Ensures.mono first fun x m holds => ⟨x, rfl, holds⟩
      · rintro _ m ⟨result, ⟨⟩, holds⟩
        rw [List.append_cons]
        exact ih holds fun tried t o m mem => step tried t o m (List.mem_cons_of_mem target mem)
      · rintro _ _ ⟨_, ⟨⟩, _⟩

end Ensures

end BlastRadius
