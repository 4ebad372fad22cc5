import Bringup.Command.Guide
import Bringup.Procedure.OnHost

/-!
The `run` command: the whole procedure, and its report.
-/

namespace Bringup

set_option autoImplicit false

/-- A line of equals signs. -/
def ruler : String := String.ofList (List.replicate 50 '=')

/-- The sign in front of a stage. -/
def Outcome.sign : Outcome → String
  | ran => "✅"
  | skipped => "⏭️ "

/-- A stage of the report. -/
def StageRecord.print (r : StageRecord) : HostM Unit := do
  let name ← HostM.paint .bold r.stage.name
  let note ← match r.note with
    | none => pure ""
    | some text => do
      let shown ← HostM.paint .dimmed text
      pure s!" ({shown})"
  HostM.printLine s!"  {r.outcome.sign} {name}{note}"

/-- The report of a run that came to its end, on the standard output. -/
def Report.print (r : Report) : HostM Unit := do
  HostM.printLine "\n🚀 fiber bootstrap complete"
  HostM.printLine ruler
  HostM.printLine s!"Checkout: {r.checkout.text}"
  match r.revision with
  | none => pure ()
  | some revision => HostM.printLine s!"Pinned revision: {revision}"
  match r.head with
  | none => pure ()
  | some head => HostM.printLine s!"HEAD: {head}"
  HostM.printLine ""
  r.stages.forM StageRecord.print
  match r.guidance with
  | none => pure ()
  | some guidance => guidance.print

/-- The procedure by a plan, and its report. -/
def Plan.carryOut (plan : Plan) (quiet : Bool) : HostM (Except Failure Unit × Report) :=
  Procedure.run (Collaborators.ofPlan plan quiet) plan (Report.ofPlan plan)

/-- The plan that a run is carried out by. -/
def Options.plan (o : Options) : HostM (Except Failure Plan) := do
  match ← o.workdirOn with
  | .error e => return .error e
  | .ok workdir =>
    match ← o.resolve workdir with
    | .error e => return .error e
    | .ok settings => return (Plan.ofSettings settings workdir).mapError .settings

/-- The `run` command. A report that cannot be written as JSON is a failure of its own, whatever the
procedure came to. -/
def Command.runMain (o : Options) : HostM (Except Failure Unit) := do
  match ← o.plan with
  | .error e => return .error e
  | .ok plan =>
    let (result, report) ← plan.carryOut o.quiet
    if o.json then return (← HostM.printJson report.json).bind fun _ => result
    else
      if result.isOk && !o.quiet then report.print
      return result

end Bringup
