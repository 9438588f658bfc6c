import BlastRadius.Inventory.Vulnerability
import BlastRadius.Propagation.Pass

/-!
Propagation of marks: the closure of calls once, then the other stages in rounds. By default there
is one round; a converging propagation goes on until a whole round marks nothing.

Marks are never taken back: a stage that fails leaves those that were set before.
-/

namespace BlastRadius

/-- A commit of a propagation: the round and the stage that make it, and how many commits the stage
has made before. -/
structure Moment where
  round : Nat
  stage : Stage
  step : Nat
  deriving DecidableEq, Repr

/-- The options of a propagation, and how long it takes. -/
structure PropagationConfig where
  /-- Whether rounds are repeated until one marks nothing. -/
  converge : Bool := false
  /-- The time for the whole propagation, in milliseconds. -/
  deadlineMs : Option Nat := none
  /-- The commit before which this time runs out, if it does. No request says so but the clock. -/
  lapse : Option Moment := none
  deriving DecidableEq, Repr

namespace PropagationConfig

open Json (Decoder RecordReader)

/-- Whether a commit comes after the deadline. Without a deadline none does, and with no time at all
every one. A propagation ends with the first that does, so that it does not matter what later ones
would find. -/
def late (config : PropagationConfig) (round : Nat) (stage : Stage) (step : Nat) : Bool :=
  match config.deadlineMs with
  | none => false
  | some 0 => true
  | some _ => config.lapse == some ⟨round, stage, step⟩

def toJson (config : PropagationConfig) : Json :=
  .obj [("converge", .bool config.converge), ("deadline_ms", config.deadlineMs.elim .null .num)]

def decode : Decoder PropagationConfig :=
  RecordReader.decode <|
    ((RecordReader.fieldOr "converge" Decoder.bool false).and
      (RecordReader.fieldOr "deadline_ms"
        (Decoder.nullable (Decoder.natBelow UInt64.size)) none)).map
        fun (converge, deadlineMs) => { converge, deadlineMs }

end PropagationConfig

def Stage.toJson (stage : Stage) : Json := .str stage.name

def Stage.decode : Json.Decoder Stage := Json.Decoder.nameOf Stage.ofName?

/-- How many nodes a stage marked in a round. Rounds are counted from one. -/
structure StageReport where
  stage : Stage
  round : Nat
  newlyMarked : Nat
  deriving DecidableEq, Repr

/-- A report of a stage as an object. -/
def StageReport.toJson (report : StageReport) : Json :=
  .obj [("stage", report.stage.toJson), ("round", .num report.round),
    ("newly_marked", .num report.newlyMarked)]

/-- How many nodes the reported stages marked. -/
def StageReport.total (reports : List StageReport) : Nat :=
  reports.foldr (fun report total => report.newlyMarked + total) 0

/-- The report of a propagation. -/
structure PropagationReport where
  /-- The vulnerability and the symbol that it started from, if it was seeded. -/
  vulnerability : Option NodeId := none
  seed : Option NodeId := none
  stages : List StageReport
  /-- How many rounds there were. -/
  rounds : Nat
  /-- How many nodes are marked in the end. -/
  totalMarked : Nat
  deriving DecidableEq, Repr

namespace PropagationReport

/-- How many nodes a stage marked in all rounds. -/
def newlyMarkedBy (report : PropagationReport) (stage : Stage) : Nat :=
  StageReport.total (report.stages.filter fun r => r.stage == stage)

/-- A report as an object, with the name of the run. -/
def toJson (report : PropagationReport) (runId : String) : Json :=
  .obj [("run_id", .str runId),
    ("vulnerability", report.vulnerability.elim .null NodeId.toJson),
    ("seed", report.seed.elim .null NodeId.toJson),
    ("stages", .arr (report.stages.map StageReport.toJson)),
    ("rounds", .num report.rounds),
    ("total_marked", .num report.totalMarked)]

end PropagationReport

namespace Propagation

/-- No commit comes too late. -/
def timeless (_ : Stage) (_ : Nat) : Bool := false

/-- Runs a stage and names it in its error. -/
def execute (late : Stage → Nat → Bool) (stage : Stage) : ImpactProgram Nat :=
  ExceptT.mk ((fun result => result.mapError (Interrupt.inStage stage)) <$>
    (pass (late stage) stage).run)

/-- Runs a stage without a deadline. -/
def runStage (stage : Stage) : ImpactProgram Nat := execute timeless stage

/-- Runs stages one after the other and reports each. -/
def runStages (late : Stage → Nat → Bool) (round : Nat) :
    List Stage → ImpactProgram (List StageReport)
  | [] => return []
  | stage :: rest => do
      let newly ← execute late stage
      let others ← runStages late round rest
      return ⟨stage, round, newly⟩ :: others

/-- The rounds of the stages after the closure of calls, starting with round `round`, and the number
of the last one. -/
def runRounds (config : PropagationConfig) : Nat → Nat → ImpactProgram (List StageReport × Nat)
  | 0, round => return ([], round - 1)
  | fuel + 1, round => do
      let reports ← runStages (config.late round) round Stage.downstream
      if config.converge && StageReport.total reports != 0 then
        let (later, rounds) ← runRounds config fuel (round + 1)
        return (reports ++ later, rounds)
      else return (reports, round)

/-- Propagates from the marks there are. -/
def propagate (config : PropagationConfig) : ImpactProgram PropagationReport := do
  let newly ← execute (config.late 1) .allReachingSymbols
  -- No later stage marks a symbol, so that the calls are closed once and for all.
  let (reports, rounds) ← runRounds config (NodeId.count + 1) 1
  let total ← ImpactProgram.ofStore StoreProgram.countMarked
  return {
    stages := ⟨.allReachingSymbols, 1, newly⟩ :: reports
    rounds := rounds
    totalMarked := total }

/-- Seeds with the vulnerability of this identity, then propagates. -/
def run (config : PropagationConfig) (identity : Option String) :
    ImpactProgram PropagationReport := do
  let seed ← Inventory.seed identity
  let report ← propagate config
  return { report with vulnerability := some seed.vulnerability, seed := some seed.symbol }

end Propagation

end BlastRadius
