import BlastRadius.Proofs.Propagation.Calls
import BlastRadius.Proofs.Propagation.Timing

/-!
The rounds of a propagation. One round sweeps over the rules of every stage after the closure of
calls. Repeated until a round marks nothing, they mark the least closed set that contains the marks
they start from.
-/

namespace BlastRadius

def Stage.roundRules : List Rule := downstream.flatMap rules

theorem Stage.rules_subset (stage : Stage) : stage.rules ⊆ roundRules := by
  intro rule mem
  cases stage with
  | allReachingSymbols => exact absurd mem List.not_mem_nil
  | _ => exact List.mem_flatMap.mpr ⟨_, by simp [downstream], mem⟩

theorem Stage.of_mem_roundRules : ∀ rule ∈ roundRules, ∃ stage :
    Stage, rule ∈ stage.rules :=
  Propagation.staged_rules downstream

namespace Contents

variable {c : Contents}

/-- The least closed set that contains the given nodes. -/
def closure (c : Contents) (ids : Set NodeId) : Set NodeId :=
  {x | ∀ t, ids ⊆ t → c.Closed t → x ∈ t}

theorem isLeast_closure (c : Contents) (ids : Set NodeId) :
    IsLeast {t | ids ⊆ t ∧ c.Closed t} (c.closure ids) := by
  refine ⟨⟨fun x mem t sub _ => sub mem, ?_⟩, fun t ht x mem => mem t ht.1 ht.2⟩
  intro stage rule mem x reached t sub closed
  have within : c.closure ids ⊆ t := fun y hy => hy t sub closed
  exact closed stage rule mem (reach_mono within rule reached)

theorem closed_mark {marks t : Set NodeId} : (c.mark marks).Closed t ↔ c.Closed t := by
  simp only [Closed, reach_mark]

theorem closure_mark (marks ids : Set NodeId) : (c.mark marks).closure ids = c.closure ids := by
  simp only [closure, closed_mark]

/-- A closure stays the same when some of it is added to what it starts from. -/
theorem closure_of_between {ids ids' : Set NodeId} (sub : ids ⊆ ids')
    (within : ids' ⊆ c.closure ids) :
    c.closure ids' = c.closure ids := by
  have least := c.isLeast_closure ids
  have least' := c.isLeast_closure ids'
  exact subset_antisymm (least'.2 ⟨within, least.1.2⟩)
    (least.2 ⟨sub.trans least'.1.1, least'.1.2⟩)

theorem closure_of_closed {ids : Set NodeId} (closed : c.Closed ids) : c.closure ids = ids :=
  subset_antisymm ((c.isLeast_closure ids).2 ⟨subset_rfl, closed⟩) (c.isLeast_closure ids).1.1

theorem closure_sweep {rules : List Rule}
    (staged : ∀ rule ∈ rules, ∃ stage : Stage, rule ∈ stage.rules) :
    (c.sweep rules).closure (c.sweep rules).marked = c.closure c.marked := by
  have within := sweep_subset (c.isLeast_closure c.marked).1.2 staged
      (c.isLeast_closure c.marked).1.1
  obtain ⟨ids, swept⟩ := exists_sweep (c := c) rules
  have sub := subset_sweep (c := c) rules
  rw [swept] at within sub ⊢
  rw [closure_mark]
  exact closure_of_between sub within

theorem mark_closure_sweep {rules : List Rule}
    (staged : ∀ rule ∈ rules, ∃ stage : Stage, rule ∈ stage.rules) :
    (c.sweep rules).mark ((c.sweep rules).closure (c.sweep rules).marked) =
      c.mark (c.closure c.marked) := by
  have within := sweep_subset (c.isLeast_closure c.marked).1.2 staged
      (c.isLeast_closure c.marked).1.1
  rw [closure_sweep staged]
  obtain ⟨ids, swept⟩ := exists_sweep (c := c) rules
  rw [swept, mark_marked] at within
  rw [swept, mark_mark]
  refine Contents.ext rfl rfl ?_
  simp only [mark_marked, ← Set.union_assoc]
  rw [Set.union_eq_right.mpr within, Set.union_eq_right.mpr (c.isLeast_closure c.marked).1.1]

/-- The contents after some rounds of the stages after the closure of calls. -/
def rounds (c : Contents) : Nat → Contents
  | 0 => c
  | n + 1 => (c.rounds n).sweep Stage.roundRules

theorem Valid.rounds (valid : c.Valid) (n : Nat) : (c.rounds n).Valid := by
  induction n with
  | zero => exact valid
  | succ n ih => exact ih.sweep Stage.of_mem_roundRules

theorem rounds_succ (c : Contents) (n : Nat) :
    c.rounds (n + 1) = (c.sweep Stage.roundRules).rounds n := by
  induction n with
  | zero => rfl
  | succ n ih => rw [rounds, ih, rounds]

theorem mark_closure_rounds (c : Contents) (n : Nat) :
    (c.rounds n).mark ((c.rounds n).closure (c.rounds n).marked) = c.mark (c.closure c.marked) := by
  induction n with
  | zero => rfl
  | succ n ih => exact (mark_closure_sweep Stage.of_mem_roundRules).trans ih

theorem Valid.closure_live (valid : c.Valid) : c.closure c.marked ⊆ c.live :=
  (c.isLeast_closure c.marked).2 ⟨valid.marked_live, fun _ _ mem _ reached =>
    (reach_live valid mem reached).1⟩

end Contents

namespace Propagation

variable {c : Contents} {config : PropagationConfig}

theorem reads_tally {kinds : List NodeKind} (nodup : kinds.Nodup) (total : Nat) :
    Reads (kinds.foldlM (fun total kind => do
      let ids ← StoreProgram.call (.markedNodes kind)
      return total + ids.length) total) c
        (total + (c.marked ∩ {id | ∃ kind ∈ kinds, id ∈ c.ofKind kind}).ncard) := by
  induction kinds generalizing total with
  | nil => simpa using Reads.pure total
  | cons kind rest ih =>
      obtain ⟨other, nodup⟩ := List.nodup_cons.mp nodup
      have step := ih nodup (total + (c.marked ∩ c.ofKind kind).ncard)
      have disjoint : Disjoint (c.marked ∩ c.ofKind kind)
          (c.marked ∩ {id | ∃ kind ∈ rest, id ∈ c.ofKind kind}) := by
        refine Set.disjoint_left.mpr fun id mem => ?_
        rintro ⟨_, kind', mem', own⟩
        exact other (Contents.ofKind_eq mem.2 own ▸ mem')
      have split : c.marked ∩ {id | ∃ k ∈ kind :: rest, id ∈ c.ofKind k} =
          c.marked ∩ c.ofKind kind ∪ c.marked ∩
            {id | ∃ kind ∈ rest, id ∈ c.ofKind kind} := by
        ext id
        simp only [List.mem_cons, exists_eq_or_imp, Set.mem_inter_iff, Set.mem_union,
          Set.mem_ofPred_eq, ← and_or_left]
      rw [Nat.add_assoc, ← Set.ncard_union_eq disjoint (Set.toFinite _)
        (Set.toFinite _), ← split]
        at step
      rw [List.foldlM_cons]
      refine Reads.bind ((Reads.markedNodes kind).bind (.pure _)) ?_
      rw [NodeId.length_listed]
      exact step

theorem reads_countMarked (valid : c.Valid) : Reads StoreProgram.countMarked c c.marked.ncard := by
  have nodup : NodeKind.all.Nodup := by decide
  have every : c.marked ∩ {id | ∃ kind ∈ NodeKind.all, id ∈ c.ofKind kind} = c.marked := by
    refine Set.inter_eq_left.mpr fun id mem => ?_
    obtain ⟨node, found⟩ := valid.marked_live mem
    exact ⟨node.kind, NodeKind.mem_all _, node, found, rfl⟩
  have counted := reads_tally (c := c) nodup 0
  rwa [every, Nat.zero_add] at counted

theorem leads_round (valid : c.Valid) (round : Nat) :
    Leads (runStages timeless round Stage.downstream).run c
      (.ok (reportsOf round Stage.downstream c)) (c.sweep Stage.roundRules) :=
  leads_runStages round (List.Subset.refl _) valid

theorem leads_runRounds_once (valid : c.Valid) (once : config.converge = false)
    (now : config.InTime) (fuel round : Nat) :
    Leads (runRounds config (fuel + 1) round).run c
      (.ok (reportsOf round Stage.downstream c, round)) (c.sweep Stage.roundRules) := by
  rw [runRounds, now]
  refine (leads_round valid round).bind ?_
  simp only [once, Bool.false_and, Bool.false_eq_true, if_false]
  exact .pure _

/-- The number of the round after which a propagation stops, counted from zero. By default this is
the first; a converging propagation goes on until a round marks nothing. -/
structure LastRound (config : PropagationConfig) (c : Contents) (n : Nat) : Prop where
  once : config.converge = false → n = 0
  stable : config.converge = true → gain (c.rounds n) Stage.roundRules = 0
  unstable : ∀ i < n, gain (c.rounds i) Stage.roundRules ≠ 0

theorem LastRound.rounds_eq {n : Nat} (last : LastRound config c n)
    (converge : config.converge = true) :
    c.rounds (n + 1) = c.mark (c.closure c.marked) := by
  have closed : (c.rounds n).Closed (c.rounds n).marked :=
    Contents.closed_of_sweep Stage.rules_subset (gain_eq_zero.mp (last.stable converge))
  rw [Contents.rounds, Contents.sweep_of_closed closed Stage.of_mem_roundRules,
    ← Contents.mark_closure_rounds c n, Contents.closure_of_closed closed,
    Contents.mark_of_subset subset_rfl]

/-- The rounds of a propagation, when the fuel is more than the number of nodes without a mark. -/
theorem leads_runRounds (valid : c.Valid) (now : config.InTime) {fuel : Nat}
    (enough : c.markedᶜ.ncard < fuel) (round : Nat) :
    ∃ n, LastRound config c n ∧ Leads (runRounds config fuel round).run c
      (.ok ((List.range (n + 1)).flatMap fun i =>
        reportsOf (round + i) Stage.downstream (c.rounds i), round + n)) (c.rounds (n + 1)) := by
  induction fuel generalizing c round with
  | zero => exact absurd enough (Nat.not_lt_zero _)
  | succ fuel ih =>
      have swept := leads_round valid round
      have total : StageReport.total (reportsOf round Stage.downstream c) =
          gain c Stage.roundRules :=
        total_reportsOf round Stage.downstream c
      by_cases more : config.converge = true ∧ gain c Stage.roundRules ≠ 0
      · have less : (c.sweep Stage.roundRules).markedᶜ.ncard < c.markedᶜ.ncard := by
          refine Set.ncard_lt_ncard ⟨Set.compl_subset_compl.mpr (Contents.subset_sweep _),
            fun sub => ?_⟩
          exact more.2 (gain_eq_zero.mpr (Set.compl_subset_compl.mp sub))
        obtain ⟨n, last, later⟩ := ih (valid.sweep Stage.of_mem_roundRules) (by omega)
          (round + 1)
        refine ⟨n + 1, ⟨fun once => absurd (more.1.symm.trans once) Bool.noConfusion,
          fun converge => ?_, fun i less => ?_⟩, ?_⟩
        · rw [Contents.rounds_succ]
          exact last.stable converge
        · cases i with
          | zero => exact more.2
          | succ i =>
              rw [Contents.rounds_succ]
              exact last.unstable i (Nat.lt_of_succ_lt_succ less)
        · have shifted (i : Nat) :
              reportsOf (round + (i + 1)) Stage.downstream (c.rounds (i + 1)) =
              reportsOf (round + 1 + i) Stage.downstream ((c.sweep Stage.roundRules).rounds i) := by
            rw [Contents.rounds_succ, Nat.add_assoc, Nat.add_comm 1 i]
          simp only [runRounds, now round, more.1, Bool.true_and]
          refine swept.bind ?_
          rw [total, if_pos (by simpa using more.2), Contents.rounds_succ, List.range_succ_eq_map,
            List.flatMap_cons, List.flatMap_map]
          simp only [Nat.succ_eq_add_one, shifted]
          rw [show round + (n + 1) = round + 1 + n by omega]
          exact later.bind (.pure _)
      · refine ⟨0, ⟨fun _ => rfl, fun converge => ?_, fun i less =>
          absurd less (Nat.not_lt_zero i)⟩, ?_⟩
        · exact not_not.mp fun some => more ⟨converge, some⟩
        · rw [runRounds, now]
          refine swept.bind ?_
          rw [total, if_neg (by simpa using more)]
          exact .pure _

theorem leads_runRounds_converge (valid : c.Valid) (converge : config.converge = true)
    (now : config.InTime) {fuel : Nat} (enough : c.markedᶜ.ncard < fuel) (round : Nat) :
    ∃ reports rounds, Leads (runRounds config fuel round).run c (.ok (reports, rounds))
      (c.mark (c.closure c.marked)) := by
  obtain ⟨n, last, later⟩ := leads_runRounds valid now enough round
  rw [last.rounds_eq converge] at later
  exact ⟨_, _, later⟩

/-- The contents after the closure of calls. -/
def called (c : Contents) : Contents := c.mark (c.callClosure (c.among c.marked .symbol))

theorem called_valid (valid : c.Valid) : (called c).Valid :=
  valid.mark (valid.callClosure_live Set.inter_subset_right)

theorem leads_calls (valid : c.Valid) :
    Leads (runStage .allReachingSymbols).run c
      (.ok (c.callClosure (c.among c.marked .symbol) \ c.marked).ncard) (called c) :=
  leads_execute (leads_allReachingSymbols valid)

/-- The report of a propagation from some contents to others. -/
noncomputable def reportOf (c c' : Contents) (reports : List StageReport) (rounds : Nat) :
    PropagationReport where
  stages :=
    ⟨.allReachingSymbols, 1, (c.callClosure (c.among c.marked .symbol) \ c.marked).ncard⟩ ::
    reports
  rounds := rounds
  totalMarked := c'.marked.ncard

theorem leads_propagate {rounds : Nat} {reports : List StageReport} {c' : Contents}
    (valid : c.Valid) (valid' : c'.Valid) (now : config.InTime)
    (later : Leads (runRounds config (NodeId.count + 1) 1).run (called c)
      (.ok (reports, rounds)) c') :
    Leads (propagate config).run c (.ok (reportOf c c' reports rounds)) c' := by
  rw [propagate, now]
  refine (leads_calls valid).bind (later.bind ?_)
  exact (Leads.ofStore (reads_countMarked valid')).bind (.pure _)

theorem leads_propagate_once (valid : c.Valid) (once : config.converge = false)
    (now : config.InTime) :
    Leads (propagate config).run c (.ok (reportOf c ((called c).sweep Stage.roundRules)
      (reportsOf 1 Stage.downstream (called c)) 1)) ((called c).sweep Stage.roundRules) := by
  have valid' := called_valid valid
  exact leads_propagate valid (valid'.sweep Stage.of_mem_roundRules) now
    (leads_runRounds_once valid' once now NodeId.count 1)

theorem leads_propagate_converge (valid : c.Valid) (converge : config.converge = true)
    (now : config.InTime) :
    ∃ report, Leads (propagate config).run c (.ok report)
      ((called c).mark ((called c).closure (called c).marked)) := by
  have valid' := called_valid valid
  obtain ⟨reports, rounds, later⟩ := leads_runRounds_converge valid' converge now
    (Nat.lt_succ_of_le (NodeId.ncard_le _)) 1
  exact ⟨_, leads_propagate valid (valid'.mark valid'.closure_live) now later⟩

theorem exists_leads_propagate (valid : c.Valid) (now : config.InTime) :
    ∃ report c', Leads (propagate config).run c (.ok report) c' := by
  have valid' := called_valid valid
  obtain ⟨n, _, later⟩ := leads_runRounds valid' now (Nat.lt_succ_of_le (NodeId.ncard_le _)) 1
  exact ⟨_, _, leads_propagate valid (valid'.rounds _) now later⟩

/-- Under any clock, a propagation succeeds or comes too late. -/
theorem leads_propagate_timed (valid : c.Valid) (config : PropagationConfig) :
    ∃ x c', Leads (propagate config).run c x c' ∧ ∀ error, x = .error error →
      TooLate error := by
  obtain ⟨report, c', whole⟩ := exists_leads_propagate valid config.untimed_inTime
  rcases curtails_propagate config _ _ _ _ _ whole with same | ⟨error, m, tooLate, cut⟩
  · exact ⟨.ok report, c', same, by simp⟩
  · exact ⟨.error error, m, cut, fun _ same => Except.error.inj same ▸ tooLate⟩

end Propagation

end BlastRadius
