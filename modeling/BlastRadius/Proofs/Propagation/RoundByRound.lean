import BlastRadius.Proofs.Propagation.FixedPoint
import BlastRadius.Proofs.Store.Scripted

/-!
A converging propagation against propagations of one round, called again and again. Each call closes
the calls once more, but a round never marks a symbol, so that there is nothing left to close: the
calls go through the same contents as the rounds.
-/

namespace BlastRadius

namespace Contents

variable {c : Contents}

/-- Every caller of a marked symbol is marked. -/
def CallersMarked (c : Contents) : Prop :=
  c.callers (c.among c.marked .symbol) ⊆ c.among c.marked .symbol

theorem callers_sweep (rules : List Rule) (ids : Set NodeId) :
    (c.sweep rules).callers ids = c.callers ids := by
  obtain ⟨marks, swept⟩ := exists_sweep (c := c) rules
  rw [swept, callers_mark]

theorem CallersMarked.sweep (complete : c.CallersMarked) (valid : c.Valid) {rules : List Rule}
    (staged : ∀ rule ∈ rules, ∃ stage : Stage, rule ∈ stage.rules) :
      (c.sweep rules).CallersMarked := by
  have other (rule : Rule) (mem : rule ∈ rules) : .symbol ∉ rule.kinds := by
    obtain ⟨stage, mem⟩ := staged rule mem
    exact (stage.rules_kinds rule mem).1
  rw [CallersMarked, valid.among_sweep other, callers_sweep]
  exact complete

theorem CallersMarked.rounds (complete : c.CallersMarked) (valid : c.Valid) (n : Nat) :
    (c.rounds n).CallersMarked := by
  induction n with
  | zero => exact complete
  | succ n ih => exact ih.sweep (valid.rounds n) Stage.of_mem_roundRules

end Contents

namespace Propagation

variable {σ : Type} {c : Contents} {config : PropagationConfig}

theorem callersMarked_called (valid : c.Valid) : (called c).CallersMarked := by
  have symbols : (called c).among (called c).marked .symbol =
      {s | ∃ n, s ∈ c.within (c.among c.marked .symbol) n} := among_called valid
  rw [Contents.CallersMarked, symbols]
  exact c.callers_within _

theorem called_of_callersMarked (complete : c.CallersMarked) : called c = c := by
  rw [called, Contents.callClosure_of_closed complete]
  exact Contents.mark_of_subset Set.inter_subset_left

noncomputable def callGain (c : Contents) : Nat :=
  (c.callClosure (c.among c.marked .symbol) \ c.marked).ncard

theorem callGain_of_callersMarked (complete : c.CallersMarked) : callGain c = 0 := by
  have old : c.among c.marked .symbol ⊆ c.marked := Set.inter_subset_left
  rw [callGain, Contents.callClosure_of_closed complete, Set.sdiff_eq_empty.mpr old,
    Set.ncard_empty]

/-- A round that is over: what it reported and the state at its end. -/
structure Round (σ : Type) where
  reports : List StageReport
  state : σ

/-- The rounds of a propagation from number `round` on, for as long as it goes on. -/
def roundsFrom (config : PropagationConfig) (store : Store σ) :
    Nat → Nat → σ → List (Round σ)
  | 0, _, _ => []
  | fuel + 1, round, s =>
      match (runStages (config.late round) round Stage.downstream).run.run store s with
      | (.error _, _) => []
      | (.ok reports, s') => ⟨reports, s'⟩ ::
          if config.converge && StageReport.total reports != 0 then
            roundsFrom config store fuel (round + 1) s'
          else []

/-- What the rounds of a propagation answer, and the state that they leave, is what
was seen round by round. -/
theorem runRounds_eq (store : Store σ) {fuel round last : Nat} (positive : 0 < round) {s s' : σ}
    {reports : List StageReport}
    (ran : (runRounds config fuel round).run.run store s = (.ok (reports, last), s')) :
    reports = (roundsFrom config store fuel round s).flatMap Round.reports ∧
      last + 1 = round + (roundsFrom config store fuel round s).length ∧
      s' = ((roundsFrom config store fuel round s).getLast?.map Round.state).getD s := by
  induction fuel generalizing round s reports last with
  | zero =>
      cases ran
      exact ⟨rfl, Nat.sub_add_cancel positive, rfl⟩
  | succ fuel ih =>
      rw [runRounds, ExceptT.run_bind, Program.run_bind] at ran
      rw [roundsFrom]
      rcases first : (runStages (config.late round) round Stage.downstream).run.run store s with
        ⟨error | found, t⟩
      · rw [first] at ran
        cases ran
      · rw [first] at ran
        dsimp only at ran ⊢
        by_cases more : (config.converge && StageReport.total found != 0) = true
        · rw [if_pos more, ExceptT.run_bind, Program.run_bind] at ran
          rw [if_pos more]
          rcases rest : (runRounds config fuel (round + 1)).run.run store t with
            ⟨error | ⟨later, last'⟩, t'⟩
          · rw [rest] at ran
            cases ran
          · rw [rest] at ran
            cases ran
            obtain ⟨listed, number, final⟩ := ih (Nat.add_one_pos round) rest
            refine ⟨by rw [List.flatMap_cons, listed], ?_, ?_⟩
            · rw [List.length_cons, number]
              omega
            · rw [List.getLast?_cons]
              refine final.trans ?_
              cases (roundsFrom config store fuel (round + 1) t).getLast? <;> rfl
        · rw [if_neg more] at ran ⊢
          cases ran
          exact ⟨by simp, rfl, rfl⟩

theorem reports_renumbered (round : Nat) (stages : List Stage) (c : Contents) :
    (reportsOf round stages c).map (fun report => { report with round := 1 }) =
      reportsOf 1 stages c := by
  induction stages generalizing c with
  | nil => rfl
  | cons stage rest ih => rw [reportsOf, List.map_cons, ih, reportsOf]

theorem getElem?_roundsFrom (medium : Medium) (now : config.InTime) {fuel round n : Nat}
    {s : medium.State} (sound : medium.view.sound s) {ended : Round medium.State}
    (seen : (roundsFrom config medium.store fuel round s)[n]? = some ended) :
    ended.reports = reportsOf (round + n) Stage.downstream ((medium.view.holds s).rounds n) ∧
      medium.view.holds ended.state = (medium.view.holds s).rounds (n + 1) := by
  induction fuel generalizing round n s with
  | zero => cases seen
  | succ fuel ih =>
      obtain ⟨t, ran, holds, sound'⟩ :=
        medium.run_of_leads sound (leads_round (medium.valid_of_sound sound) round)
      rw [roundsFrom, now, ran] at seen
      dsimp only at seen
      cases n with
      | zero =>
          rw [List.getElem?_cons_zero] at seen
          cases seen
          exact ⟨rfl, holds⟩
      | succ n =>
          rw [List.getElem?_cons_succ] at seen
          split at seen
          · have later := ih sound' seen
            rwa [holds, ← Contents.rounds_succ, ← Contents.rounds_succ,
              Nat.add_right_comm] at later
          · cases seen

theorem roundsFrom_ne_nil (medium : Medium) (now : config.InTime) {s : medium.State}
    (sound : medium.view.sound s) (fuel round : Nat) :
    roundsFrom config medium.store (fuel + 1) round s ≠ [] := by
  obtain ⟨t, ran, _⟩ :=
    medium.run_of_leads sound (leads_round (medium.valid_of_sound sound) round)
  rw [roundsFrom, now, ran]
  exact List.cons_ne_nil _ _

/-- The options of a propagation of one round, and of a converging one, without a deadline. -/
def singlePass : PropagationConfig := { converge := false, deadlineMs := none }

def converging : PropagationConfig := { converge := true, deadlineMs := none }

theorem singlePass_inTime : singlePass.InTime := PropagationConfig.inTime_of_untimed rfl

theorem converging_inTime : converging.InTime := PropagationConfig.inTime_of_untimed rfl

/-- The state after some propagations of one round. -/
def singlePasses (store : Store σ) : Nat → σ → σ
  | 0, s => s
  | n + 1, s => ((propagate singlePass).run.run store (singlePasses store n s)).2

/-- The rounds of a converging propagation. -/
def convergingRounds (store : Store σ) (s : σ) : List (Round σ) :=
  roundsFrom converging store (NodeId.count + 1) 1
    ((runStage .allReachingSymbols).run.run store s).2

theorem leads_singlePass (valid : c.Valid) (n : Nat) :
    let before := if n = 0 then c else (called c).rounds n
    ∃ report, Leads (propagate singlePass).run before (.ok report) ((called c).rounds (n + 1)) ∧
      report.stages = ⟨.allReachingSymbols, 1, if n = 0 then callGain c else 0⟩ ::
        reportsOf 1 Stage.downstream ((called c).rounds n) := by
  cases n with
  | zero => exact ⟨_, leads_propagate_once valid rfl singlePass_inTime, rfl⟩
  | succ n =>
      have valid' := (called_valid valid).rounds (n + 1)
      -- The rounds marked no symbol, so that there is still no call to close.
      have complete := (callersMarked_called valid).rounds (called_valid valid) (n + 1)
      have passed := leads_propagate_once valid' (rfl : singlePass.converge = false)
        singlePass_inTime
      rw [called_of_callersMarked complete] at passed
      refine ⟨_, passed, ?_⟩
      have nothing : callGain ((called c).rounds (n + 1)) = 0 := callGain_of_callersMarked complete
      rw [callGain] at nothing
      rw [reportOf, nothing]
      rfl

theorem holds_singlePasses (medium : Medium) {s : medium.State} (sound : medium.view.sound s)
    (n : Nat) : medium.view.sound (singlePasses medium.store n s) ∧
      medium.view.holds (singlePasses medium.store n s) = if n = 0 then medium.view.holds s
        else (called (medium.view.holds s)).rounds n := by
  induction n with
  | zero => exact ⟨sound, rfl⟩
  | succ n ih =>
      obtain ⟨report, leads, _⟩ := leads_singlePass (medium.valid_of_sound sound) n
      rw [← ih.2] at leads
      obtain ⟨t, ran, holds, sound'⟩ := medium.run_of_leads ih.1 leads
      rw [singlePasses, ran]
      exact ⟨sound', holds⟩

/-- A propagation of one round succeeds, leaves what the round with its number left, and reports
what that round reported. Only in the first one there are calls to close. -/
theorem singlePass_of_round (medium : Medium) {s : medium.State} (sound : medium.view.sound s)
    {n : Nat} {ended : Round medium.State}
    (here : (convergingRounds medium.store s)[n]? = some ended) : ∃ once,
      (propagate singlePass).run.run medium.store (singlePasses medium.store n s) =
        (.ok once, singlePasses medium.store (n + 1) s) ∧
      once.stages =
        ⟨.allReachingSymbols, 1, if n = 0 then callGain (medium.view.holds s) else 0⟩ ::
          ended.reports.map (fun report => { report with round := 1 }) ∧
      medium.view.holds (singlePasses medium.store (n + 1) s) = medium.view.holds ended.state := by
  have valid := medium.valid_of_sound sound
  obtain ⟨s₁, ran₁, holds₁, sound₁⟩ := medium.run_of_leads sound (leads_calls valid)
  rw [convergingRounds, ran₁] at here
  obtain ⟨reported, left⟩ := getElem?_roundsFrom medium converging_inTime sound₁ here
  rw [holds₁] at reported left
  obtain ⟨once, leads, stages⟩ := leads_singlePass valid n
  obtain ⟨soundN, holdsN⟩ := holds_singlePasses medium sound n
  rw [← holdsN] at leads
  obtain ⟨t, ran, holds, _⟩ := medium.run_of_leads soundN leads
  have next : singlePasses medium.store (n + 1) s = t := by rw [singlePasses, ran]
  rw [reported, reports_renumbered, left, next]
  exact ⟨once, ran, stages, holds⟩

/-- How a converging propagation from `s` to `s'` and repeated propagations of one round from `s`
go together, where `newly` is what the closure of calls marked in the converging one. -/
structure RoundByRound (medium : Medium) (s s' : medium.State) (report : PropagationReport)
    (newly : Nat) : Prop where
  /-- The report is that of the closure of calls and those of the rounds, which it counts. -/
  stages : report.stages = ⟨.allReachingSymbols, 1, newly⟩ ::
    (convergingRounds medium.store s).flatMap Round.reports
  counted : report.rounds = (convergingRounds medium.store s).length
  last : (convergingRounds medium.store s).getLast?.map
    (fun ended => medium.view.holds ended.state) =
    some (medium.view.holds s')
  /-- The propagation of one round that comes after `n` others does what the round
  after `n` others did. -/
  single : ∀ n ended, (convergingRounds medium.store s)[n]? = some ended → ∃ once,
    (propagate singlePass).run.run medium.store (singlePasses medium.store n s) =
      (.ok once, singlePasses medium.store (n + 1) s) ∧
    once.stages = ⟨.allReachingSymbols, 1, if n = 0 then newly else 0⟩ ::
      ended.reports.map (fun report => { report with round := 1 }) ∧
    medium.view.holds (singlePasses medium.store (n + 1) s) = medium.view.holds ended.state
  /-- As many of them as there were rounds leave what the converging one left. -/
  final : medium.view.holds (singlePasses medium.store report.rounds s) = medium.view.holds s'

/-- A converging propagation without a deadline succeeds, and propagations of one round go through
its rounds, one by one. -/
theorem single_passes_follow_rounds (medium : Medium) {s : medium.State}
    (sound : medium.view.sound s) : ∃ report newly s',
      (propagate converging).run.run medium.store s = (.ok report, s') ∧
      RoundByRound medium s s' report newly := by
  have valid := medium.valid_of_sound sound
  have valid₁ := called_valid valid
  obtain ⟨s₁, ran₁, holds₁, sound₁⟩ := medium.run_of_leads sound (leads_calls valid)
  obtain ⟨reports, rounds, later⟩ := leads_runRounds_converge valid₁
    (rfl : converging.converge = true) converging_inTime (Nat.lt_succ_of_le (NodeId.ncard_le _)) 1
  have whole := leads_propagate valid (valid₁.mark valid₁.closure_live) converging_inTime later
  obtain ⟨s', ran, holds, _⟩ := medium.run_of_leads sound whole
  rw [← holds₁] at later
  obtain ⟨s₂, ran₂, holds₂, _⟩ := medium.run_of_leads sound₁ later
  have seen : convergingRounds medium.store s =
      roundsFrom converging medium.store (NodeId.count + 1) 1 s₁ := by
    rw [convergingRounds, ran₁]
  have begun : convergingRounds medium.store s ≠ [] :=
    seen ▸ roundsFrom_ne_nil medium converging_inTime sound₁ _ 1
  obtain ⟨listed, number, ended⟩ := runRounds_eq medium.store Nat.one_pos ran₂
  rw [← seen] at listed number ended
  have counted : rounds = (convergingRounds medium.store s).length := by omega
  obtain ⟨final, atEnd⟩ := Option.isSome_iff_exists.mp (List.getLast?_isSome.mpr begun)
  have same : medium.view.holds final.state = medium.view.holds s' := by
    rw [atEnd] at ended
    rw [holds, ← holds₁, ← holds₂]
    exact congrArg _ ended.symm
  have last : (convergingRounds medium.store s)[rounds - 1]? = some final := by
    rw [counted, ← List.getLast?_eq_getElem?, atEnd]
  refine ⟨_, callGain (medium.view.holds s), s', ran,
    { stages := congrArg _ listed, counted, last := by rw [atEnd, Option.map_some, same]
      single := fun n ended here => singlePass_of_round medium sound here, final := ?_ }⟩
  obtain ⟨_, _, _, left⟩ := singlePass_of_round medium sound last
  rw [Nat.sub_add_cancel (counted ▸ List.length_pos_iff.mpr begun)] at left
  exact left.trans same

/-- The second round finds nothing more. -/
theorem single_passes_follow_rounds_threatened :
    let marking : StoreProgram Unit := do
      threatened
      let _ ← StoreProgram.call (.markNodes [⟨1⟩])
    let s := (marking.run.run Database.store {}).2
    ∃ report newly s', (propagate converging).run.run Database.store s = (.ok report, s') ∧
      report.rounds = 2 ∧ RoundByRound .database s s' report newly := by
  intro marking s
  have sound : Medium.database.view.sound s := Medium.database.sound_of_few _ (by decide +kernel)
  have two : ((propagate converging).run.run Database.store s).1.toOption.map
      PropagationReport.rounds = some 2 := by decide +kernel
  obtain ⟨report, newly, s', ran, rounds⟩ := single_passes_follow_rounds .database sound
  change (propagate converging).run.run Database.store s = _ at ran
  rw [ran] at two
  exact ⟨report, newly, s', ran, Option.some.inj two, rounds⟩

end Propagation

end BlastRadius
