import BlastRadius.Proofs.Store.Faithful
import BlastRadius.Proofs.Store.Keeping

/-!
What is inherited by the stages of a propagation from their calls. A stage searches by calls that
read and marks what it found, so that each stage need be taken apart only once.
-/

namespace BlastRadius.Propagation

open StoreProgram (call)

variable {P : (α : Type) → StoreProgram α → Prop}
    {Q : (α : Type) → StageProgram α → Prop}
  {α : Type}

/-- A property that is inherited by sequences of programs and that reading has. -/
structure Searches (P : (α : Type) → StoreProgram α → Prop) : Prop
    extends StoreProgram.Sequences P where
  read {q : Call} : q.reads = true → P _ (call q)

/-- A property of stages that is inherited by sequences and that searching and marking have. -/
structure Stages (P : (α : Type) → StoreProgram α → Prop)
    (Q : (α : Type) → StageProgram α → Prop) :
    Prop extends Searches P where
  value {α : Type} (value : α) : Q α (Pure.pure value)
  stop {α : Type} (interrupt : Interrupt) : Q α (throw interrupt)
  follow {α β : Type} {p : StageProgram β} {next : β → StageProgram α} :
    Q β p → (∀ value, Q α (next value)) → Q α (p >>= next)
  reading {α : Type} {p : StoreProgram α} : P α p → Q α (reading p)
  marking (ids : List NodeId) : Q _ (Propagation.reading (call (.markNodes ids)))

namespace Searches

variable (searches : Searches P)
include searches

theorem fromMarked (kind : NodeKind) {f : NodeId → StoreProgram (List NodeId)}
    (all : ∀ id, P _ (f id)) : P _ (Propagation.fromMarked kind f) :=
  searches.bind (searches.read rfl) fun _ => searches.gather all

theorem callingRecords (kind : NodeKind) (callee : NodeId) {f : NodeId → StoreProgram (List α)}
    (all : ∀ id, P _ (f id)) : P _ (Propagation.callingRecords kind callee f) := by
  refine searches.bind (searches.read rfl) fun _ => searches.gather fun record => ?_
  refine searches.bind (searches.read rfl) fun found => ?_
  split
  · exact all record
  · exact searches.pure []

theorem unmarkedCallers (symbol : NodeId) : P _ (Propagation.unmarkedCallers symbol) := by
  refine searches.callingRecords _ symbol fun record =>
    searches.bind (searches.read rfl) fun _ => ?_
  refine searches.bind (searches.keep fun caller => ?_) fun _ => searches.pure _
  exact searches.bind (searches.read rfl) fun _ => searches.pure _

theorem siblings (anchor sibling : NodeKind) : P _ (Propagation.siblings anchor sibling) := by
  refine searches.fromMarked anchor fun id => searches.bind (searches.read rfl) fun _ => ?_
  refine searches.gather fun binding => searches.bind (searches.read rfl) fun targets => ?_
  refine searches.bind (searches.keep fun id => ?_) fun found => searches.pure _
  exact searches.bind (searches.read rfl) fun _ => searches.pure _

theorem networkReach (symbol : NodeId) : P _ (Propagation.networkReach symbol) := by
  refine searches.bind (searches.read rfl) fun _ => searches.gather fun endpoint => ?_
  refine searches.bind (searches.callingRecords _ endpoint fun record => ?_) fun _ =>
    searches.pure _
  refine searches.bind (searches.read rfl) fun _ => ?_
  refine searches.bind (searches.gather fun caller => ?_) fun _ => searches.pure _
  exact searches.bind (searches.read rfl) fun _ => searches.pure _

theorem countMarked : P _ StoreProgram.countMarked := by
  have tally (kinds : List NodeKind) (total : Nat) : P _ (kinds.foldlM (fun total kind => do
      let ids ← call (.markedNodes kind)
      return total + ids.length) total : StoreProgram Nat) := by
    induction kinds generalizing total with
    | nil => exact searches.pure total
    | cons kind rest ih =>
        rw [List.foldlM_cons]
        exact searches.bind (searches.bind (searches.read rfl) fun _ => searches.pure _)
          fun total =>
          ih total
  exact tally NodeKind.all 0

end Searches

namespace Stages

variable (stages : Stages P Q)
include stages

theorem commit (late : Bool) (ids : List NodeId) : Q _ (Propagation.commit late ids) := by
  rw [Propagation.commit]
  split
  · exact stages.stop _
  · split
    · exact stages.value 0
    · exact stages.marking _

theorem mark (late : Bool) {found : StoreProgram (List NodeId)} (search : P _ found) :
    Q _ (Propagation.mark late found) :=
  stages.follow (stages.reading search) fun ids => stages.commit late ids

theorem closeCalls (late : Nat → Bool) (fuel step : Nat) (frontier : List NodeId) :
    Q _ (Propagation.closeCalls late fuel step frontier) := by
  induction fuel generalizing step frontier with
  | zero => exact stages.value 0
  | succ fuel ih =>
      refine stages.follow (stages.reading (stages.gather stages.unmarkedCallers)) fun found => ?_
      refine stages.follow (stages.commit _ _) fun newly => ?_
      split
      · exact stages.value 0
      · exact stages.follow (ih _ _) fun _ => stages.value _

theorem pass (late : Nat → Bool) (stage : Stage) : Q _ (Propagation.pass late stage) := by
  have rule {kind : NodeKind} {f : NodeId → StoreProgram (List NodeId)} (step : Nat)
      (all : ∀ id, P _ (f id)) := stages.mark (late step) (stages.fromMarked kind all)
  have siblings (step : Nat) (anchor sibling : NodeKind) :=
    stages.mark (late step) (stages.siblings anchor sibling)
  cases stage with
  | allReachingSymbols =>
      exact stages.follow (stages.reading (stages.read rfl)) fun _ => stages.closeCalls late _ 0 _
  | allProvidingLibraries =>
      refine stages.follow (rule 0 fun id => stages.read (q := .sources id .provides) rfl)
        fun _ => ?_
      refine stages.follow (siblings 1 _ _) fun _ => stages.follow (siblings 2 _ _) fun _ => ?_
      exact stages.follow (siblings 3 _ _) fun _ => stages.value _
  | allReachingComponents => exact rule 0 stages.networkReach
  | allHostingAssets => exact rule 0 fun id => stages.read (q := .targets id .hostedBy) rfl
  | lateralMovement => exact rule 0 fun id => stages.read (q := .sources id .hostedBy) rfl
  | allSystems => exact rule 0 fun id => stages.read (q := .sources id .composedOf) rfl

end Stages

variable {C : Call → Prop} {B : (β : Type) → Program (Except StoreError β) → Prop}

theorem searches_eachStep (read : ∀ {q : Call}, q.reads = true → C q) :
    Searches fun _ (p : StoreProgram _) => EachStep C B p where
  pure := .pure
  bind := .bind
  read reads := .call (read reads)

theorem stages_eachStep (read : ∀ {q : Call}, q.reads = true → C q)
    (mark : ∀ ids, C (.markNodes ids)) : Stages (fun _ (p : StoreProgram _) => EachStep C B p)
      fun _ (p : StageProgram _) => EachStep C B p where
  toSearches := searches_eachStep read
  value := .pure
  stop := .throw
  follow := .bind
  reading := .mapError Interrupt.store
  marking ids := .mapError Interrupt.store (.call (mark ids))

end BlastRadius.Propagation
