import BlastRadius.Proofs.Parity.Vulnerabilities
import BlastRadius.Proofs.Propagation.Rounds

/-!
Propagation does alike: what the stages mark is found from the nodes, edges and marks alone, so it
is renamed with them, and the counts are equal.
-/

namespace BlastRadius

variable {c : Contents} {f : Renaming}

namespace Contents

theorem rename_among (ids : Set NodeId) (kind : NodeKind) :
    (c.rename f).among (f '' ids) kind = f '' c.among ids kind := by
  rw [among, among, rename_ofKind, Set.image_inter f.injective]

theorem rename_reach (ids : Set NodeId) (rule : Rule) :
    (c.rename f).reach (f '' ids) rule = f '' c.reach ids rule := by
  ext x
  obtain ⟨x, rfl⟩ := f.surjective x
  rw [f.injective.mem_set_image]
  cases rule <;>
    simp only [reach, rename_among, rename_sources, rename_targets, Set.exists_mem_image,
      f.injective.mem_set_image, f.injective.eq_iff, Set.mem_ofPred_eq]

theorem rename_calls {s r t : NodeId} : (c.rename f).Calls (f s) (f r) (f t) ↔ c.Calls s r t := by
  rw [Calls, Calls, rename_sources, rename_among, rename_targets, f.injective.mem_set_image,
    f.injective.mem_set_image]

theorem rename_callers (ids : Set NodeId) :
    (c.rename f).callers (f '' ids) = f '' c.callers ids := by
  ext s
  obtain ⟨s, rfl⟩ := f.surjective s
  rw [f.injective.mem_set_image]
  refine f.surjective.exists.trans (exists_congr fun r => ?_)
  simp only [Set.exists_mem_image, rename_calls]

theorem rename_incoming (ids : Set NodeId) :
    (c.rename f).incoming (f '' ids) = f '' c.incoming ids := by
  ext r
  obtain ⟨r, rfl⟩ := f.surjective r
  rw [f.injective.mem_set_image]
  refine f.surjective.exists.trans (exists_congr fun s => ?_)
  simp only [Set.exists_mem_image, rename_calls, f.injective.mem_set_image]

end Contents

theorem Propagation.roundMarks_rename : roundMarks (c.rename f) = f '' roundMarks c := by
  rw [roundMarks, roundMarks, Contents.rename_marked, Contents.rename_among,
    Contents.rename_callers, Contents.rename_incoming, ← Set.image_sdiff f.injective,
    ← Set.image_union]

namespace Alike

open Propagation

theorem commit (late : Bool) {l l' : List NodeId} {ids : Set NodeId} (live : ids ⊆ c.live)
    (mem : {id | id ∈ l} = ids) (mem' : {id | id ∈ l'} = f '' ids) :
    Alike c f (Propagation.commit late l) (Propagation.commit late l') fun c₁ f₁ x y =>
      c₁ = c.mark ids ∧ f₁ = f ∧ y = x := by
  cases late with
  | true => exact .throw Interrupt.deadline
  | false =>
      refine .leads fun tidy valid => ?_
      have live' : f '' ids ⊆ (c.rename f).live := by
        rw [Contents.rename_live]
        exact Set.image_mono live
      have left := leads_commit (c := c) fun id hid => live (mem ▸ hid : id ∈ ids)
      have right := leads_commit (c := c.rename f) fun id hid =>
          live' (mem' ▸ hid : id ∈ f '' ids)
      rw [mem] at left
      rw [mem', Contents.rename_marked, ← Set.image_sdiff f.injective, NodeId.ncard_image,
        ← Contents.rename_mark] at right
      exact ⟨_, _, _, left, right, tidy.mark live, id, rfl, rfl, rfl⟩

theorem rule (late : Bool) (stage : Stage) {rule : Rule} (staged : rule ∈ stage.rules)
    {found : StoreProgram (List NodeId)}
    (finds : ∀ c : Contents, c.Valid → Finds found c (c.reach c.marked rule)) :
    Alike c f (Propagation.mark late found) (Propagation.mark late found)
      fun _ _ x y => y = x := by
  refine .ofTidy fun tidy => ?_
  have valid' := tidy.valid.rename f
  obtain ⟨l, reads, mem⟩ := finds c tidy.valid
  obtain ⟨l', reads', mem'⟩ := finds (c.rename f) valid'
  rw [Contents.rename_marked, Contents.rename_reach] at mem'
  have read : Alike c f (reading found) (reading found) fun c₁ f₁ x y =>
      c₁ = c ∧ f₁ = f ∧ x = l ∧ y = l' :=
    (Alike.reads fun _ _ => ⟨l, l', reads, reads', rfl, rfl⟩).mapError Interrupt.store
  refine read.bind fun c₁ f₁ x y _ same => ?_
  obtain ⟨rfl, rfl, rfl, rfl⟩ := same
  refine (commit late (fun _ reached => (Contents.reach_live tidy.valid staged reached).1)
    (Set.ext mem) (Set.ext mem')).mono fun _ _ _ _ _ same => same.2.2

theorem closeCalls (late : Nat → Bool) (fuel step : Nat) {frontier frontier' : List NodeId}
    (front : Frontier c frontier) (front' : Frontier (c.rename f) frontier') :
    Alike c f (Propagation.closeCalls late fuel step frontier)
      (Propagation.closeCalls late fuel step frontier') fun _ _ x y => y = x := by
  induction fuel generalizing c f step frontier frontier' with
  | zero => exact .pure rfl
  | succ fuel ih =>
      refine .ofTidy fun tidy => ?_
      have valid' := tidy.valid.rename f
      obtain ⟨l, reads, callers, found⟩ := reads_round tidy.valid front
      obtain ⟨l', reads', callers', found'⟩ := reads_round valid' front'
      have next := Frontier.next tidy.valid fun s => NodeId.mem_ascending.trans (callers s)
      have next' := Frontier.next valid' fun s => NodeId.mem_ascending.trans (callers' s)
      rw [roundMarks_rename] at found' next'
      rw [← Contents.rename_mark] at next'
      have read : Alike c f (reading (StoreProgram.gather unmarkedCallers frontier))
          (reading (StoreProgram.gather unmarkedCallers frontier')) fun c₁ f₁ x y =>
            c₁ = c ∧ f₁ = f ∧ x = l ∧ y = l' :=
        (Alike.reads fun _ _ => ⟨l, l', reads, reads', rfl, rfl⟩).mapError Interrupt.store
      refine read.bind fun c₁ f₁ x y _ same => ?_
      obtain ⟨rfl, rfl, rfl, rfl⟩ := same
      refine (commit (late step) (fun _ => roundMarks_live tidy.valid) found found').bind
        fun c₁ f₁ newly newly' _ same => ?_
      obtain ⟨rfl, rfl, rfl⟩ := same
      split
      · exact .pure rfl
      · exact (ih (step + 1) next next').bind fun _ _ _ _ _ same => .pure (same ▸ rfl)

theorem pass (late : Nat → Bool) (stage : Stage) :
    Alike c f (Propagation.pass late stage) (Propagation.pass late stage)
      fun _ _ x y => y = x := by
  cases stage with
  | allReachingSymbols =>
      have read : Alike c f (reading (StoreProgram.call (.markedNodes .symbol)))
          (reading (StoreProgram.call (.markedNodes .symbol))) fun c₁ f₁ x y =>
            c₁ = c ∧ f₁ = f ∧ x = NodeId.listed (c.among c.marked .symbol) ∧
              y = NodeId.listed ((c.rename f).among (c.rename f).marked .symbol) :=
        (Alike.reads fun _ _ => ⟨_, _, Reads.markedNodes .symbol, Reads.markedNodes .symbol, rfl,
          rfl⟩).mapError Interrupt.store
      refine read.bind fun c₁ f₁ x y _ same => ?_
      obtain ⟨rfl, rfl, rfl, rfl⟩ := same
      exact closeCalls late _ 0 (.marked _) (.marked _)
  | allProvidingLibraries =>
      refine (rule (late 0) .allProvidingLibraries (by simp [Stage.rules])
        fun _ => finds_providers).bind fun _ _ _ _ _ first => ?_
      refine (rule (late 1) .allProvidingLibraries (by simp [Stage.rules])
        fun _ valid => finds_siblings valid .library .component).bind fun _ _ _ _ _ second => ?_
      refine (rule (late 2) .allProvidingLibraries (by simp [Stage.rules])
        fun _ valid => finds_siblings valid .library .asset).bind fun _ _ _ _ _ third => ?_
      refine (rule (late 3) .allProvidingLibraries (by simp [Stage.rules])
        fun _ valid => finds_siblings valid .component .asset).bind fun _ _ _ _ _ fourth => ?_
      subst first second third fourth
      exact .pure rfl
  | allReachingComponents =>
      exact rule (late 0) .allReachingComponents (by simp [Stage.rules]) fun _ => finds_network
  | allHostingAssets =>
      exact rule (late 0) .allHostingAssets (by simp [Stage.rules]) fun _ => finds_hosts
  | lateralMovement =>
      exact rule (late 0) .lateralMovement (by simp [Stage.rules]) fun _ => finds_residents
  | allSystems =>
      exact rule (late 0) .allSystems (by simp [Stage.rules]) fun _ => finds_systems

theorem execute (late : Stage → Nat → Bool) (stage : Stage) :
    Alike c f (Propagation.execute late stage) (Propagation.execute late stage)
      fun _ _ x y => y = x :=
  (pass (late stage) stage).mapError (Interrupt.inStage stage)

theorem runStages (late : Stage → Nat → Bool) (round : Nat) (stages : List Stage) :
    Alike c f (Propagation.runStages late round stages) (Propagation.runStages late round stages)
      fun _ _ x y => y = x := by
  induction stages generalizing c f with
  | nil => exact .pure rfl
  | cons stage rest ih =>
      refine (execute late stage).bind fun c₁ f₁ x y _ same =>
        ih.bind fun c₂ f₂ xs ys _ same' => ?_
      subst same same'
      exact .pure rfl

theorem runRounds (config : PropagationConfig) (fuel round : Nat) :
    Alike c f (Propagation.runRounds config fuel round) (Propagation.runRounds config fuel round)
      fun _ _ x y => y = x := by
  induction fuel generalizing c f round with
  | zero => exact .pure rfl
  | succ fuel ih =>
      refine (runStages (config.late round) round Stage.downstream).bind
        fun c₁ f₁ x y _ same => ?_
      subst same
      split
      · refine (ih (round + 1)).bind fun c₂ f₂ xs ys _ same => ?_
        subst same
        exact .pure rfl
      · exact .pure rfl

theorem countMarked :
    Alike c f StoreProgram.countMarked StoreProgram.countMarked
      fun c₁ f₁ x y => c₁ = c ∧ f₁ = f ∧ y = x := by
  refine .reads fun tidy valid => ?_
  have right := reads_countMarked valid
  rw [Contents.rename_marked, NodeId.ncard_image] at right
  exact ⟨_, _, reads_countMarked tidy.valid, right, rfl⟩

theorem propagate (config : PropagationConfig) :
    Alike c f (Propagation.propagate config) (Propagation.propagate config) fun _ f₁ x y =>
      x.Agree f₁ y ∧ x.vulnerability = none ∧ x.seed = none := by
  refine (execute (config.late 1) .allReachingSymbols).bind fun c₁ f₁ x y _ same => ?_
  refine (runRounds config _ 1).bind fun c₂ f₂ xs ys _ same' => ?_
  refine countMarked.ofStore.bind fun c₃ f₃ n m _ counted => ?_
  obtain ⟨_, _, same''⟩ := counted
  subst same same' same''
  exact .pure ⟨⟨rfl, rfl, rfl, rfl, rfl⟩, rfl, rfl⟩

theorem run (config : PropagationConfig) {identity : Option String}
    (threatening : ∀ v ∈ c.vulnerabilities identity, c.targets v .threatens ≠ ∅) :
    Alike c f (Propagation.run config identity) (Propagation.run config identity)
      fun _ f₁ x y => x.Agree f₁ y := by
  refine (seed threatening).bind fun c₁ f₁ x y _ started => ?_
  refine (propagate config).bind fun c₂ f₂ report report' grown agree => ?_
  obtain ⟨vulnerability, symbol, _⟩ := started
  exact .pure ⟨congrArg some (vulnerability.grown grown).2, congrArg some (symbol.grown grown).2,
    agree.1.stages, agree.1.rounds, agree.1.totalMarked⟩

end Alike

end BlastRadius
