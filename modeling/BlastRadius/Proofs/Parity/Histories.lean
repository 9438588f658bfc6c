import BlastRadius.Proofs.Impact.Climbing
import BlastRadius.Proofs.Parity.Operations

/-!
Operations performed one after the other on both stores, from the store without nodes. After each of
them the two graphs are equal up to a renaming of the identifiers, and the two answers agree.
-/

namespace BlastRadius

/-- The result of an operation and the graph that is loaded after it. -/
structure Observation where
  result : Except ImpactError Answer
  graph : Except StoreError DependencyGraph

/-- Observations agree when one renaming makes the graphs equal and the results agree. -/
def Observation.Agree (a b : Observation) : Prop :=
  ∃ f : Renaming, (∃ g g', a.graph = .ok g ∧ b.graph = .ok g' ∧ g.Agree f g') ∧
    ResultsAgree f a.result b.result

/-- Performs operations one after the other and observes each. -/
def Operation.history : List Operation → Program (List Observation)
  | [] => return []
  | operation :: rest => do
      let result ← operation.perform.run
      let graph ← (StoreProgram.call .loadGraph).run
      let others ← history rest
      return ⟨result, graph⟩ :: others

namespace Operation

/-- The histories that start from corresponding contents agree. -/
theorem runs_history {c c₁ c₂ : Contents} {f : Renaming} {operations : List Operation}
    {xs ys : List Observation} (tidy : c.Tidy)
    (ran : (history operations).Runs Contents.Step c xs c₁)
    (ran' : (history operations).Runs Contents.Step (c.rename f) ys c₂) :
    List.Forall₂ Observation.Agree xs ys := by
  induction operations generalizing c f xs ys with
  | nil =>
      obtain ⟨rfl, rfl⟩ := ran
      obtain ⟨rfl, rfl⟩ := ran'
      exact .nil
  | cons operation rest ih =>
      obtain ⟨x, m, performed, ran⟩ := Program.runs_bind.mp ran
      obtain ⟨y, m', performed', ran'⟩ := Program.runs_bind.mp ran'
      obtain ⟨f₁, rfl, tidy₁, agree⟩ :=
        operation.agreeing tidy x m y m' performed performed'
      obtain ⟨loaded, m, load, ran⟩ := Program.runs_bind.mp ran
      obtain ⟨loaded', m', load', ran'⟩ := Program.runs_bind.mp ran'
      obtain ⟨⟨g, rfl, valid, rfl⟩, rfl⟩ := runs_storeCall.mp load
      obtain ⟨⟨g', rfl, valid', same⟩, rfl⟩ := runs_storeCall.mp load'
      obtain ⟨others, m, later, rfl, rfl⟩ := Program.runs_bind.mp ran
      obtain ⟨others', m', later', rfl, rfl⟩ := Program.runs_bind.mp ran'
      refine .cons ⟨f₁, ⟨g, g', rfl, rfl, valid, valid', same⟩, agree⟩ ?_
      exact ih tidy₁ later later'

theorem run_history_cons (medium : Medium) (first : Operation) (rest : List Operation)
    (s : medium.State) : ((history (first :: rest)).run medium.store s).1 =
      ⟨(first.on medium.store s).1,
        (medium.store.call .loadGraph (first.on medium.store s).2).1⟩ ::
        ((history rest).run medium.store (first.on medium.store s).2).1 := by
  rw [history, Program.run_bind, Program.run_bind, Program.run_bind]
  cases medium <;> rfl

theorem run_history_concat (medium : Medium) (operations : List Operation) (operation : Operation)
    (s : medium.State) : ∃ graph, ((history (operations ++ [operation])).run medium.store s).1 =
      ((history operations).run medium.store s).1 ++ [⟨(operation.on medium.store
        (operations.foldl (fun s operation => (operation.on medium.store s).2) s)).1,
          graph⟩] := by
  induction operations generalizing s with
  | nil => exact ⟨_, run_history_cons medium operation [] s⟩
  | cons first rest ih =>
      obtain ⟨graph, later⟩ := ih (first.on medium.store s).2
      refine ⟨graph, ?_⟩
      rw [List.cons_append, run_history_cons, run_history_cons, later]
      rfl

theorem not_agree_of_last (operations operations' : List Operation) {last last' : Operation}
    (answered : (last.on Memory.store (Medium.memory.reached operations)).1.isOk = true)
    (failed : (last'.on Database.store (Medium.database.reached operations')).1.isOk = false) :
    ¬ List.Forall₂ Observation.Agree
      ((history (operations ++ [last])).run Medium.memory.store Medium.memory.initial).1
      ((history (operations' ++ [last'])).run Medium.database.store Medium.database.initial).1 := by
  obtain ⟨graph, ran⟩ := run_history_concat .memory operations last Medium.memory.initial
  obtain ⟨graph', ran'⟩ :=
    run_history_concat .database operations' last' Medium.database.initial
  rw [ran, ran', ← List.forall₂_reverse_iff, List.reverse_concat, List.reverse_concat]
  rintro (_ | ⟨⟨f, -, same⟩, -⟩)
  change ResultsAgree f (last.on Memory.store (Medium.memory.reached operations)).1
    (last'.on Database.store (Medium.database.reached operations')).1 at same
  generalize (last.on Memory.store (Medium.memory.reached operations)).1 = x at answered same
  generalize (last'.on Database.store (Medium.database.reached operations')).1 = y at failed same
  cases x <;> cases y <;> trivial

/-- From the store without nodes, both stores have histories that agree, as long as there are fewer
than `NodeId.count - 1` nodes in memory whenever one is made, and the database has an identifier
above its greatest one for it. -/
theorem histories_agree (operations : List Operation)
    (few : (history operations).Room Memory.store (fun memory => memory.graph.nodes.length + 1) {})
    (room : (history operations).Room Database.store Database.view.level {}) :
    List.Forall₂ Observation.Agree ((history operations).run Memory.store {}).1
      ((history operations).run Database.store {}).1 := by
  have spacious : Memory.Spacious {} := ⟨Memory.initial_sound, by decide, nofun⟩
  have ran := Medium.memory.runs_of_room _ (Memory.room_of_few spacious few).1
  have ran' := Medium.database.runs_of_room _ room
  rw [← Contents.rename_empty (f := Equiv.refl NodeId)] at ran'
  exact runs_history Contents.empty_tidy ran ran'

/-- The stores differ in the identifiers that they use again for the second asset. -/
theorem histories_agree_after_removal :
    let operations : List Operation :=
      [.upsertAsset ⟨"disk", "1"⟩, .upsertComponent ⟨"shop", "2"⟩, .upsertSymbol "parse",
        .upsertEndpoint ⟨⟨"shop", "2"⟩, "pay"⟩, .resetKinds [.asset],
        .upsertAsset ⟨"disk", "2"⟩, .hostComponent ⟨"shop", "2"⟩ ⟨"disk", "2"⟩,
        .createVulnerability (some "weakness") "parse", .radius]
    List.Forall₂ Observation.Agree ((history operations).run Memory.store {}).1
      ((history operations).run Database.store {}).1 :=
  histories_agree _ (by decide +kernel) (by decide +kernel)

/-- The histories part when the database has no identifier left, which may be so with three nodes.
They part too when a deadline expires for one store only. -/
theorem histories_part :
    let operations := exhausting ++ [.upsertAsset ⟨"disk", "1"⟩]
    let moment : Moment := ⟨1, .allReachingSymbols, 0⟩
    (∀ medium : Medium, ∀ before, before <+: operations →
        medium.size (medium.reached before) ≤ 3) ∧
      ¬ List.Forall₂ Observation.Agree ((history operations).run Memory.store {}).1
        ((history operations).run Database.store {}).1 ∧
      ¬ List.Forall₂ Observation.Agree
        ((history [.propagate { deadlineMs := some 1 }]).run Memory.store {}).1
        ((history [.propagate { deadlineMs := some 1, lapse := some moment }]).run
          Database.store {}).1 := by
  have renewed : Medium.memory.reached exhausting = Medium.memory.reached (climb 0) :=
    Medium.reached_climb_memory _
  have grown (medium : Medium) :
      medium.rows (medium.reached (exhausting ++ [.upsertAsset ⟨"disk", "1"⟩])) ≤ 3 := by
    rw [Medium.reached_concat]
    cases medium
    · rw [renewed]
      decide +kernel
    · rw [Medium.reached_exhausting]
      decide +kernel
  refine ⟨fun medium before first => ?_, ?_, ?_⟩
  · rcases List.prefix_concat_iff.mp first with whole | earlier
    · rw [whole]
      exact (medium.size_le_rows _).trans (grown medium)
    · exact (medium.size_exhausting earlier).trans (by decide)
  · refine not_agree_of_last exhausting exhausting ?_ ?_
    · rw [renewed]
      decide +kernel
    · rw [Medium.reached_exhausting]
      decide +kernel
  · exact not_agree_of_last [] [] rfl rfl

end Operation

end BlastRadius
