import BlastRadius.Proofs.Impact.Capacity
import BlastRadius.Proofs.Impact.Rejections
import BlastRadius.Proofs.Inventory.Targets

/-!
Programs that try targets one by one. A target that is refused changes nothing, so that such a
program leaves what it would have left without the refused targets. It reports these and no others.
-/

namespace BlastRadius

variable {σ ε α β γ τ : Type}

/-- A part that must succeed, the targets one by one, a part for the values of those that succeeded,
and the report of those that failed. -/
def ImpactProgram.bestEffort (opening : ImpactProgram γ) (describe : τ → String)
    (act : γ → τ → ImpactProgram α) (closing : γ → List α → ImpactProgram β)
    (targets : List τ) :
    ImpactProgram β := do
  let head ← opening
  let outcomes ← ImpactProgram.collect describe (act head) {} targets
  let answer ← closing head outcomes.successes
  let _ ← ImpactProgram.ofResult outcomes.result
  return answer

def BestEffort.accepted (refusal : τ → Option ImpactError) (targets : List τ) : List τ :=
  targets.filter fun target => (refusal target).isNone

/-- The targets that are refused, each with the error. -/
def BestEffort.refused (describe : τ → String) (refusal : τ → Option ImpactError)
    (targets : List τ) :
    List (String × ImpactError) :=
  targets.filterMap fun target => (refusal target).map fun error => (describe target, error)

namespace Contents

variable {c m m' : Contents}

/-- There may be more endpoints, systems and edges, and otherwise the same nodes. -/
structure Widens (c m : Contents) : Prop extends c.ExtendedBy m where
  valid : m.Valid
  others {id : NodeId} {node : Node} : m.node? id = some node → node.kind ≠ .endpoint →
    node.kind ≠ .system → c.node? id = some node

theorem Valid.widens (valid : c.Valid) : c.Widens c := ⟨.refl c, valid, fun found _ _ => found⟩

theorem Widens.trans (first : c.Widens m) (second : m.Widens m') : c.Widens m' where
  toExtendedBy := first.toExtendedBy.trans second.toExtendedBy
  valid := second.valid
  others found endpoint system := first.others (second.others found endpoint system) endpoint system

theorem Valid.widens_insert (valid : c.Valid) {id : NodeId} {node : Node}
    (fresh : c.node? id = none)
    (free : ∀ key, node.key? = some key → c.keyed key = ∅)
    (kind : node.kind = .endpoint ∨ node.kind = .system) : c.Widens (c.insert id node) where
  toExtendedBy := insert_extendedBy fresh node
  valid := valid.insert fresh free
  others {other node'} found endpoint system := by
    by_cases same : other = id
    · subst same
      obtain rfl := Option.some.inj ((c.insert_node?_self other node).symm.trans found)
      exact absurd (kind.resolve_left endpoint) system
    · rwa [insert_node?_of_ne node same] at found

theorem Valid.widens_link (valid : c.Valid) {e : Edge} {source target : Node}
    (hs : c.node? e.source = some source) (ht : c.node? e.target = some target)
    (permitted : e.relation.permits source.kind target.kind = true) : c.Widens (c.link e) where
  toExtendedBy := link_extendedBy e
  valid := valid.link hs ht permitted
  others found _ _ := found

theorem Widens.keyed (widens : c.Widens m) {key : NodeKey} (endpoint : key.node.kind ≠ .endpoint)
    (system : key.node.kind ≠ .system) : m.keyed key = c.keyed key := by
  ext id
  rw [mem_keyed, mem_keyed]
  exact ⟨fun found => widens.others found endpoint system, widens.nodes⟩

theorem Widens.ofKind (widens : c.Widens m) {kind : NodeKind} (endpoint : kind ≠ .endpoint)
    (system : kind ≠ .system) : m.ofKind kind = c.ofKind kind := by
  ext id
  constructor
  · rintro ⟨node, found, rfl⟩
    exact ⟨node, widens.others found endpoint system, rfl⟩
  · rintro ⟨node, found, same⟩
    exact ⟨node, widens.nodes found, same⟩

end Contents

open Contents

/-- A value as wanted, unless identifiers have run out. -/
def Succeeds (V : α → Contents → Prop) : Except ImpactError α → Contents → Prop
  | .ok value, m => V value m
  | .error error, m => error.exhausted = true ∧ m.Exhausted

/-- A refused target has its error, another one a value as wanted. -/
def Meets (V : α → Contents → Prop) :
    Option ImpactError → Except ImpactError α → Contents → Prop
  | some error, x, _ => x = .error error
  | none, x, m => Succeeds V x m

theorem meets_ok {V : α → Contents → Prop} {refusal : Option ImpactError} {value : α}
    {m : Contents} :
    Meets V refusal (.ok value) m ↔ refusal = none ∧ V value m := by
  cases refusal <;> simp [Meets, Succeeds]

theorem meets_error {V : α → Contents → Prop} {refusal : Option ImpactError}
    {error : ImpactError}
    {m : Contents} : Meets V refusal (.error error) m ↔
      refusal = some error ∨ refusal = none ∧ error.exhausted = true ∧ m.Exhausted := by
  cases refusal with
  | none => simp [Meets, Succeeds]
  | some other =>
      constructor
      · rintro ⟨⟩
        exact Or.inl rfl
      · rintro (⟨⟨⟩⟩ | ⟨⟨⟩, _⟩)
        rfl

/-- What the parts of a program do that tries targets one by one. The values `H` of the opening and
`V` of the targets are as wanted, and stay so as the contents grow. -/
structure BestEffort (c : Contents) (refusal : τ → Option ImpactError)
    (H : γ → Contents → Prop)
    (V : α → Contents → Prop) (opening : ImpactProgram γ)
    (act : γ → τ → ImpactProgram α)
    (closing : γ → List α → ImpactProgram β) : Prop where
  opens : Ensures .trying opening c fun x m => c.Widens m ∧ Succeeds H x m
  tries {head : γ} (target : τ) {m : Contents} : c.Widens m → H head m →
    Ensures .trying (act head target) m fun x m' => m.Widens m' ∧ Meets V (refusal target) x m'
  closes {head : γ} {values : List α} {m : Contents} : c.Widens m → H head m →
    (∀ value ∈ values, V value m) → Ensures .trying (closing head values) m fun x m' =>
      m.ExtendedBy m' ∧ (values = [] → m' = m) ∧ Succeeds (fun _ _ => True) x m'
  head {head : γ} {m m' : Contents} : H head m → m.ExtendedBy m' → H head m'
  value {value : α} {m m' : Contents} : V value m → m.ExtendedBy m' → V value m'

theorem ImpactProgram.run_attempt (store : Store σ) (p : ImpactProgram α) (s : σ) :
    (ImpactProgram.attempt p).run.run store s =
      (.ok (p.run.run store s).1, (p.run.run store s).2) := by
  rw [ImpactProgram.attempt, ExceptT.run_mk, map_eq_pure_bind, Program.run_bind]
  rfl

theorem ImpactProgram.run_collect_cons (store : Store σ) (describe : τ → String)
    (act : τ → ImpactProgram α)
    (outcomes : Outcomes α) (target : τ) (rest : List τ) (s : σ) :
    (ImpactProgram.collect describe act outcomes (target :: rest)).run.run store s =
      (ImpactProgram.collect describe act
        (outcomes.record (describe target) ((act target).run.run store s).1) rest).run.run store
          ((act target).run.run store s).2 := by
  rw [ImpactProgram.collect, Program.run_exceptT_bind, ImpactProgram.run_attempt]
  rfl

theorem ImpactProgram.run_report (store : Store σ) (result : Except ImpactError α)
    (answer : β) (s : σ) :
    (do
      let _ ← ImpactProgram.ofResult result
      return answer : ImpactProgram β).run.run store s = (result.map fun _ => answer, s) := by
  cases result <;> rfl

namespace Medium

variable {medium : Medium} {s : medium.State}

theorem suffices_collect_cons {describe : τ → String} {act : τ → ImpactProgram α}
    {outcomes : Outcomes α} {target : τ} {rest : List τ} (enough : medium.Suffices
      (ImpactProgram.collect describe act outcomes (target :: rest)).run s) :
    medium.Suffices (act target).run s ∧ medium.Suffices (ImpactProgram.collect describe act
      (outcomes.record (describe target) ((act target).run.run medium.store s).1) rest).run
        ((act target).run.run medium.store s).2 := by
  obtain ⟨first, later⟩ := suffices_exceptT_bind enough
  rw [ImpactProgram.attempt, ExceptT.run_mk, map_eq_pure_bind] at first
  rw [ImpactProgram.run_attempt] at later
  exact ⟨(suffices_bind first).1, later⟩

end Medium

namespace BestEffort

variable {c m : Contents} {refusal : τ → Option ImpactError} {H : γ → Contents → Prop}
  {V : α → Contents → Prop} {opening : ImpactProgram γ} {act : γ → τ → ImpactProgram α}
  {closing : γ → List α → ImpactProgram β} {describe : τ → String} {head : γ}
    {targets : List τ}

section State

variable {medium : Medium} {s : medium.State}

/-- Without the refused targets the accepted ones give the same values and leave the same state. -/
theorem collect_accepted (effort : BestEffort c refusal H V opening act closing)
    (spares : ∀ target, Spares medium.store id (act head target)) (sound : medium.view.sound s)
    (widens : c.Widens (medium.view.holds s)) (meant : H head (medium.view.holds s))
    {outcomes outcomes' : Outcomes α} (same : outcomes'.successes = outcomes.successes)
    (enough : medium.Suffices (ImpactProgram.collect describe (act head) outcomes targets).run s) :
    ∃ final final' s',
      (ImpactProgram.collect describe (act head) outcomes targets).run.run medium.store s =
        (.ok final, s') ∧
      (ImpactProgram.collect describe (act head) outcomes' (accepted refusal targets)).run.run
        medium.store s = (.ok final', s') ∧ final'.successes = final.successes := by
  induction targets generalizing s outcomes outcomes' with
  | nil => exact ⟨outcomes, outcomes', s, rfl, rfl, same⟩
  | cons target rest ih =>
      obtain ⟨here, later⟩ := Medium.suffices_collect_cons enough
      obtain ⟨ran, sound'⟩ := medium.runs_tried _ sound here
      obtain ⟨wider, meets⟩ := (effort.tries target widens meant).runs ran
      have unchanged := spares target s
      rw [ImpactProgram.run_collect_cons]
      rcases done : (act head target).run.run medium.store s with ⟨x, s₁⟩
      rw [done] at later sound' wider meets unchanged
      have widens' := widens.trans wider
      have meant' := effort.head meant wider.toExtendedBy
      cases because : refusal target with
      | some error =>
          rw [because] at meets
          obtain rfl : x = .error error := meets
          obtain rfl : s₁ = s := unchanged (failsOr_error _ error)
          rw [accepted, List.filter_cons_of_neg (by simp [because])]
          exact ih sound' widens' meant' same later
      | none =>
          rw [accepted, List.filter_cons_of_pos (by simp [because]),
            ImpactProgram.run_collect_cons, done]
          refine ih sound' widens' meant' ?_ later
          cases x with
          | ok value => exact congrArg (· ++ [value]) same
          | error error => exact same

theorem state_eq (effort : BestEffort (medium.view.holds s) refusal H V opening act closing)
    (spares : ∀ head target, Spares medium.store id (act head target))
    (sound : medium.view.sound s)
    (enough : medium.Suffices
      (ImpactProgram.bestEffort opening describe act closing targets).run s) :
    ((ImpactProgram.bestEffort opening describe act closing targets).run.run medium.store s).2 =
      ((ImpactProgram.bestEffort opening describe act closing
        (accepted refusal targets)).run.run medium.store s).2 := by
  obtain ⟨here, later⟩ := Medium.suffices_exceptT_bind enough
  obtain ⟨ran, sound'⟩ := medium.runs_tried _ sound here
  obtain ⟨widens, meant⟩ := effort.opens.runs ran
  rw [ImpactProgram.bestEffort, ImpactProgram.bestEffort, Program.run_exceptT_bind,
    Program.run_exceptT_bind]
  rcases opened : opening.run.run medium.store s with ⟨error | head, s₁⟩
  · rfl
  · rw [opened] at later sound' widens meant
    obtain ⟨trying, -⟩ := Medium.suffices_exceptT_bind later
    obtain ⟨final, final', s₂, whole, kept, same⟩ :=
      effort.collect_accepted (spares head) sound' widens meant rfl trying
    simp only [andThen, Program.run_exceptT_bind, whole, kept, same]
    rcases ((closing head final.successes).run.run medium.store s₂) with
      ⟨error | answer, s₃⟩
    · rfl
    · simp only [ImpactProgram.run_report]

end State

/-- What is known after some of the targets have been tried. -/
structure Counts (c : Contents) (describe : τ → String) (refusal : τ → Option ImpactError)
    (H : γ → Contents → Prop) (V : α → Contents → Prop) (head : γ) (tried : List τ)
    (outcomes : Outcomes α) (m : Contents) : Prop where
  widens : c.Widens m
  meant : H head m
  values : ∀ value ∈ outcomes.successes, V value m
  attempted : outcomes.attempted = tried.length
  failures : outcomes.failures = refused describe refusal tried ∨
    outcomes.exhausted = true ∧ m.Exhausted
  none : accepted refusal tried = [] → outcomes.successes = []

theorem Counts.start (widens : c.Widens m) (meant : H head m) :
    Counts c describe refusal H V head [] {} m where
  widens := widens
  meant := meant
  values := nofun
  attempted := rfl
  failures := Or.inl rfl
  none _ := rfl

theorem Counts.next (effort : BestEffort c refusal H V opening act closing) {tried : List τ}
    {outcomes : Outcomes α} (counts : Counts c describe refusal H V head tried outcomes m)
    {m' : Contents}
    (wider : m.Widens m') {target : τ} {x : Except ImpactError α}
    (meets : Meets V (refusal target) x m') :
    Counts c describe refusal H V head (tried ++ [target])
      (outcomes.record (describe target) x) m' where
  widens := counts.widens.trans wider
  meant := effort.head counts.meant wider.toExtendedBy
  values := by
    have before (value : α) (mem : value ∈ outcomes.successes) : V value m' :=
      effort.value (counts.values value mem) wider.toExtendedBy
    cases x with
    | error error => exact before
    | ok value =>
        intro other mem
        rcases List.mem_append.mp mem with mem | mem
        · exact before other mem
        · exact List.mem_singleton.mp mem ▸ (meets_ok.mp meets).2
  attempted := by
    have one := counts.attempted
    cases x <;> simp [Outcomes.record, Outcomes.attempted] at one ⊢ <;> omega
  failures := by
    have full (error : ImpactError) (also : outcomes.exhausted = true ∨ error.exhausted = true) :
        (outcomes.record (describe target) (.error error)).exhausted = true := by
      rwa [Outcomes.exhausted_record, Bool.or_eq_true]
    rw [refused, List.filterMap_append]
    cases x with
    | ok value =>
        obtain ⟨because, -⟩ := meets_ok.mp meets
        refine counts.failures.imp (fun same => ?_) (And.imp_right fun short => wider.live short)
        rw [Outcomes.record, same]
        simp [refused, because]
    | error error =>
        rcases meets_error.mp meets with because | ⟨-, exhausted, short⟩
        · rcases counts.failures with same | ⟨exhausted, short⟩
          · refine Or.inl ?_
            rw [Outcomes.record, same]
            simp [refused, because]
          · exact Or.inr ⟨full error (Or.inl exhausted), wider.live short⟩
        · exact Or.inr ⟨full error (Or.inr exhausted), short⟩
  none none := by
    rw [accepted, List.filter_append, List.append_eq_nil_iff] at none
    cases x with
    | ok value =>
        obtain ⟨because, -⟩ := meets_ok.mp meets
        simp [because] at none
    | error error => exact counts.none none.1

/-- An error is reported exactly when targets were refused. It then lists these. -/
def Reports (attempted : Nat) (failed : List (String × ImpactError)) (x : Except ImpactError β) :
    Prop :=
  ∀ error, x = .error error ↔ failed ≠ [] ∧ error = .partialFailure attempted failed

theorem Reports.map {attempted : Nat} {failed : List (String × ImpactError)} {δ : Type}
    (f : β → δ)
    {x : Except ImpactError β} (reports : Reports attempted failed x) :
    Reports attempted failed (x.map f) := by
  intro error
  rw [← reports error]
  cases x <;> simp [Except.map]

/-- The refused targets are reported and no others, unless identifiers run out. When no target is
accepted nothing is done with values. -/
theorem reports (effort : BestEffort c refusal H V opening act closing) :
    Ensures .trying (ImpactProgram.bestEffort opening describe act closing targets) c fun x m =>
      (Reports targets.length (refused describe refusal targets) x ∨
        FailsWith (fun error => error.exhausted = true) x ∧ m.Exhausted) ∧
      (accepted refusal targets = [] → c.Widens m) := by
  refine effort.opens.bind ?_ ?_
  · rintro head m ⟨widens, meant⟩
    refine (Ensures.collect (J := Counts c describe refusal H V head) (.start widens meant)
      fun tried target outcomes m _ counts =>
        (effort.tries target counts.widens counts.meant).mono fun x m' ⟨wider, meets⟩ =>
          counts.next effort wider meets).bind ?_ ?_
    · rintro outcomes m ⟨_, ⟨⟩, counts⟩
      rw [List.nil_append] at counts
      refine (effort.closes counts.widens counts.meant counts.values).bind ?_ ?_
      · rintro answer m' ⟨extended, idle, -⟩
        have narrow (none : accepted refusal targets = []) : c.Widens m' :=
          idle (counts.none none) ▸ counts.widens
        have reported := counts.failures
        have attempted := counts.attempted
        obtain ⟨successes, failures⟩ := outcomes
        cases failures with
        | nil =>
            refine Ensures.pure ⟨Or.inl fun error => ?_, narrow⟩
            have same := reported.resolve_right fun full => Bool.false_ne_true full.1
            exact iff_of_false nofun fun some => some.1 same.symm
        | cons failure rest =>
            refine Ensures.of_leads (Leads.throw _).bind_error ⟨?_, narrow⟩
            rcases reported with same | ⟨full, short⟩
            · refine Or.inl fun error => ?_
              rw [← same, ← attempted]
              simp [eq_comm]
            · exact Or.inr ⟨full, extended.live short⟩
      · rintro error m' ⟨extended, idle, full, short⟩
        exact ⟨Or.inr ⟨full, short⟩, fun none => idle (counts.none none) ▸ counts.widens⟩
    · rintro _ _ ⟨_, ⟨⟩, _⟩
  · rintro error m ⟨widens, full, short⟩
    exact ⟨Or.inr ⟨full, short⟩, fun _ => widens⟩

end BestEffort

end BlastRadius
