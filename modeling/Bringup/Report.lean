import Bringup.Plan
import Bringup.Stage

/-!
The report of a run: which stages were reached and how, and what is left to the operator.
-/

namespace Bringup

set_option autoImplicit false

/-- How a stage was reached. -/
inductive Outcome where
  | ran
  | skipped
deriving DecidableEq, Repr

/-- The spelling in reports. -/
def Outcome.text : Outcome → String
  | ran => "ran"
  | skipped => "skipped"

/-- The spelling in log lines. -/
def Outcome.title : Outcome → String
  | ran => "Ran"
  | skipped => "Skipped"

/-- A stage that was reached. -/
structure StageRecord where
  stage : Stage
  outcome : Outcome
  note : Option String
deriving DecidableEq, Repr

/-- What the operator has to know about the disassembler setting. -/
structure Guidance where
  configFile : Path
  key : String
  /-- The value that was written. -/
  applied : Option Path
  /-- A tool of the host that could be used, when nothing was written. -/
  suggested : Option Path
deriving DecidableEq, Repr

/-- Everything that happened during a run. -/
structure Report where
  checkout : Path
  revision : Option String
  syncPolicy : SyncPolicy
  stage : Stage := .start
  stages : List StageRecord := []
  head : Option String := none
  error : Option String := none
  guidance : Option Guidance := none
deriving DecidableEq, Repr

namespace Report

/-- The report of a run that has not begun. -/
def ofPlan (plan : Plan) : Report :=
  { checkout := plan.checkout, revision := plan.revision, syncPolicy := plan.syncPolicy }

/-- The report with a stage reached. -/
def record (r : Report) (stage : Stage) (outcome : Outcome) (note : Option String) : Report :=
  { r with stage, stages := r.stages ++ [⟨stage, outcome, note⟩] }

/-- The report of a run that failed. -/
def fail (r : Report) (failure : Failure) : Report :=
  { r with stage := .failed failure.kind, error := some failure.message }

/-- The stages that were carried out, in order. -/
def executed (r : Report) : List Stage :=
  (r.stages.filter fun s => s.outcome == .ran).map StageRecord.stage

/-- The run came to its end. -/
def succeeded (r : Report) : Bool := r.stage == .done

end Report

/-! ## JSON -/

/-- A path as JSON, which has no other text than Unicode. -/
def Path.json (p : Path) : Except Json.Error Json :=
  if p.isUnicode then .ok (.str p.text) else .error ⟨.pathNotUnicode, none⟩

/-- A stage that was reached, as JSON. -/
def StageRecord.json (s : StageRecord) : Json :=
  .obj ([("stage", s.stage.json), ("outcome", .str s.outcome.text)] ++ Json.optional "note" .str s.note)

/-- The operator's guidance as JSON. -/
def Guidance.json (g : Guidance) : Except Json.Error Json := do
  let configFile ← g.configFile.json
  let applied ← g.applied.mapM Path.json
  let suggested ← g.suggested.mapM Path.json
  return .obj ([("config_file", configFile), ("key", .str g.key), ("applied", applied.getD .null)]
    ++ Json.optional "suggested" id suggested)

/-- The report as JSON. -/
def Report.json (r : Report) : Except Json.Error Json := do
  let checkout ← r.checkout.json
  let guidance ← r.guidance.mapM Guidance.json
  return .obj ([("checkout", checkout), ("revision", Json.ofOption .str r.revision),
    ("sync_policy", .str r.syncPolicy.text), ("stage", r.stage.json),
    ("stages", .arr (r.stages.map StageRecord.json))] ++ Json.optional "head" .str r.head
    ++ Json.optional "error" .str r.error ++ Json.optional "guidance" id guidance)

end Bringup
