import BlastRadius.Proofs.Impact.Blocks
import BlastRadius.Proofs.Propagation.Searching

/-!
Propagations and queries leave nodes and edges as they are: they are made of calls that read, of
calls that change marks, and of the block that seeds.
-/

namespace BlastRadius

/-- What is said of the steps of programs is said of calls that leave nodes and edges as they are,
and of the block that seeds. -/
structure AllowsMarks (C : Call → Prop)
    (B : (β : Type) → Program (Except StoreError β) → Prop) :
    Prop where
  call {q : Call} : q.marks = true → C q
  seeding (symbol : NodeId) : B Nat (Inventory.seeding symbol).run

variable {C : Call → Prop} {B : (β : Type) → Program (Except StoreError β) → Prop}
    {α β : Type}

theorem EachStep.findVulnerability (read : ∀ {q : Call}, q.reads = true → C q)
    (p : Option String → Bool) : EachStep C B (Inventory.findVulnerability p) :=
  EachStep.composes.findVulnerability (fun reads => .call (read reads)) p

theorem EachStep.findAs (read : ∀ {q : Call}, q.reads = true → C q) (key : NodeKey)
    (shown : String) : EachStep C B (ImpactProgram.findAs key shown) := by
  refine .bind (EachStep.call (read rfl)).ofStore fun found => ?_
  cases found with
  | some id => exact .pure id
  | none => exact .throw _

section Propagating

variable (read : ∀ {q : Call}, q.reads = true → C q) (mark : ∀ ids, C (.markNodes ids))
include read mark

theorem EachStep.execute (late : Stage → Nat → Bool) (stage : Stage) :
    EachStep C B (Propagation.execute late stage) :=
  ((Propagation.stages_eachStep read mark).pass (late stage) stage).mapError
    (Interrupt.inStage stage)

theorem EachStep.runStages (late : Stage → Nat → Bool) (round : Nat) (stages : List Stage) :
    EachStep C B (Propagation.runStages late round stages) := by
  induction stages with
  | nil => exact .pure []
  | cons stage rest ih =>
      exact (execute read mark late stage).bind fun _ =>
        ih.bind fun _ => .pure _

theorem EachStep.runRounds (config : PropagationConfig) (fuel round : Nat) :
    EachStep C B (Propagation.runRounds config fuel round) := by
  induction fuel generalizing round with
  | zero => exact .pure _
  | succ fuel ih =>
      refine (runStages read mark (config.late round) round _).bind fun reports => ?_
      split
      · exact (ih (round + 1)).bind fun _ => .pure _
      · exact .pure _

theorem EachStep.propagate (config : PropagationConfig) :
    EachStep C B (Propagation.propagate config) := by
  refine (execute read mark (config.late 1) _).bind fun _ => ?_
  refine (runRounds read mark config _ _).bind fun _ => ?_
  exact .bind (Propagation.stages_eachStep read mark).countMarked.ofStore fun _ => .pure _

end Propagating

/-- Whether an operation only asks for something. -/
def Operation.asks : Operation → Bool
  | findEndpoint _ | marked _ | radius | library _ | component _ | callees _ | flowchart => true
  | _ => false

section Asking

variable (read : ∀ {q : Call}, q.reads = true → C q)
include read

theorem EachStep.pickFrom (pick : Node → Option α) (ids : List NodeId) :
    EachStep C B (Query.pickFrom pick ids) :=
  .gather fun _ => (EachStep.call (read rfl)).bind fun _ => .pure _

theorem EachStep.radius : EachStep C B Query.radius := by
  refine .bind (EachStep.each fun kind _ => ?_).ofStore fun _ => .pure _
  refine (EachStep.call (read rfl)).bind fun _ => .bind (.each fun id _ => ?_) fun _ => .pure _
  exact (EachStep.call (read rfl)).bind fun _ => .pure _

theorem EachStep.library (artifact : Artifact) : EachStep C B (Query.library artifact) := by
  refine .bind (.findAs read _ _) fun id => EachStep.ofStore ?_
  refine (EachStep.call (read rfl)).bind fun _ => (pickFrom read _ _).bind fun _ => ?_
  exact (EachStep.call (read rfl)).bind fun _ => .pure _

theorem EachStep.component (artifact : Artifact) : EachStep C B (Query.component artifact) := by
  refine .bind (.findAs read _ _) fun id => EachStep.ofStore ?_
  refine (EachStep.call (read rfl)).bind fun _ => (pickFrom read _ _).bind fun _ => ?_
  refine (EachStep.call (read rfl)).bind fun _ => (pickFrom read _ _).bind fun _ => ?_
  exact (EachStep.call (read rfl)).bind fun _ => .pure _

theorem EachStep.callees (symbol : String) : EachStep C B (Query.callees symbol) := by
  refine .bind (.findAs read _ _) fun id => EachStep.ofStore ?_
  refine (EachStep.call (read rfl)).bind fun _ => .bind (.gather fun record => ?_) fun _ => .pure _
  exact (EachStep.call (read rfl)).bind fun _ => pickFrom read _ _

theorem EachStep.asking {operation : Operation} (asks : operation.asks = true) :
    EachStep C B operation.perform := by
  cases operation with
  | findEndpoint endpoint =>
      exact (EachStep.bind (.findAs read _ _) fun _ => .findAs read _ _).map _
  | marked kind => exact (EachStep.call (read rfl)).ofStore.map _
  | radius => exact (EachStep.radius read).map _
  | library artifact => exact (EachStep.library read artifact).map _
  | component artifact => exact (EachStep.component read artifact).map _
  | callees symbol => exact (EachStep.callees read symbol).map _
  | flowchart => exact (EachStep.bind (EachStep.call (read rfl)).ofStore fun _ => .pure _).map _
  | _ => cases asks

end Asking

namespace AllowsMarks

variable (allows : AllowsMarks C B)
include allows

theorem marking {q : Call} (marks : q.marks = true) : EachStep C B (StoreProgram.call q) :=
  .call (allows.call marks)

theorem read {q : Call} (reads : q.reads = true) : C q :=
  allows.call (by cases q <;> first | exact reads | rfl)

theorem findAs (key : NodeKey) (shown : String) : EachStep C B (ImpactProgram.findAs key shown) :=
  .findAs allows.read key shown

theorem seed (identity : Option String) : EachStep C B (Inventory.seed identity) := by
  refine .bind (EachStep.findVulnerability allows.read _).ofStore fun found => ?_
  cases found with
  | none => exact .throw _
  | some id =>
      refine .bind (allows.marking rfl).ofStore fun targets => ?_
      cases targets with
      | nil => exact .throw _
      | cons symbol rest =>
          exact .bind (EachStep.atomically (allows.seeding symbol)).ofStore fun _ => .pure _

theorem execute (late : Stage → Nat → Bool) (stage : Stage) :
    EachStep C B (Propagation.execute late stage) :=
  .execute allows.read (fun _ => allows.call rfl) late stage

theorem propagate (config : PropagationConfig) : EachStep C B (Propagation.propagate config) :=
  .propagate allows.read (fun _ => allows.call rfl) config

theorem run (config : PropagationConfig) (identity : Option String) :
    EachStep C B (Propagation.run config identity) :=
  .bind (allows.seed identity) fun _ => (allows.propagate config).bind fun _ => .pure _

end AllowsMarks

end BlastRadius
