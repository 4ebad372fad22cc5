import Bringup.Procedure.Collaborators
import Bringup.Report

/-!
The procedure: clone, pin, sync, set up the environment, install the packages, configure the tool.

Stages follow each other in one order. A stage that an earlier run with the same target has completed is
skipped. The first failure ends the run, and nothing is undone.

* `Procedure.stages`: the stages in order.
* `Procedure.run`: a whole run with its report.
-/

namespace Bringup.Procedure

set_option autoImplicit false

variable {m : Type → Type} [Monad m]

/-- A part of a run: it may fail, and it keeps a report. -/
abbrev Step (m : Type → Type) := ExceptT Failure (StateT Report m)

/-- An operation of a collaborator. -/
def call {α : Type} (op : m α) : Step m α := ExceptT.lift (StateT.lift op)

/-- An operation that may fail, with its failure as a failure of the run. -/
def attempt {ε α : Type} (wrap : ε → Failure) (op : m (Except ε α)) : Step m α := do
  match ← call op with
  | .ok a => return a
  | .error e => throw (wrap e)

/-- The log line on a stage that is reached. -/
def transition (report : Report) (stage : Stage) (outcome : Outcome) : String :=
  s!"{report.stage.name} -> {stage.name} ({outcome.title})"

/-- A stage has been reached. -/
def reach (c : Collaborators m) (stage : Stage) (outcome : Outcome) (note : Option String) :
    Step m Unit := do
  let report ← get
  call (c.workspace.log .debug (transition report stage outcome))
  set (report.record stage outcome note)

/-- The note on a stage that an earlier run has completed. -/
def resumedNote : Option String := some "completed by a previous run"

/-- A stage is marked as completed, and the progress is recorded. -/
def complete (c : Collaborators m) (plan : Plan) (progress : Progress) (stage : Stage) :
    Step m Progress := do
  let progress := progress.mark stage (← call c.workspace.now)
  attempt .io (c.workspace.store plan.checkout progress)
  return progress

/-- A record of nothing yet. -/
def startOver (c : Collaborators m) (plan : Plan) : Step m Progress := do
  return Progress.fresh plan.targetLabel (← call c.workspace.now)

/-- The progress of earlier runs, if they had the same target. -/
def takeUp (c : Collaborators m) (plan : Plan) : Step m Progress := do
  match ← call (c.workspace.load plan.checkout) with
  | none => startOver c plan
  | some progress =>
    if progress.target = plan.targetLabel then return progress
    else
      call (c.workspace.log .info
        s!"Previous run targeted {progress.target}, now {plan.targetLabel}: re-running all stages")
      startOver c plan

/-- An acquisition that fails without a command. -/
def refused (message : String) : Failure := .acquisition ⟨message, none⟩

/-- The checkout is made, or taken over from an earlier run. -/
def acquire (c : Collaborators m) (plan : Plan) : Step m Progress := do
  let place := plan.checkout.text
  if ← call (c.workspace.present plan.checkout) then
    if plan.rerunPolicy = .fail then
      throw (refused s!"{place} already exists (pass --resume to continue a previous run)")
    if !(← call (c.source.isWorkTree plan.checkout)) then
      throw (refused s!"{place} exists but is not a git work tree")
    call (c.workspace.log .info s!"Resuming in existing checkout {place}")
    reach c .cloned .skipped (some "existing checkout")
    takeUp c plan
  else
    call (c.workspace.log .info s!"Cloning {plan.repository} into {place}")
    attempt .acquisition (c.source.clone plan.repository plan.checkout)
    reach c .cloned .ran none
    startOver c plan

/-- The revision that a run has to check out: none when the default branch is followed. -/
def pinnedRevision (plan : Plan) : Option String :=
  if plan.syncPolicy = .latest then none else plan.revision

/-- The pinned revision is checked out. -/
def pin (c : Collaborators m) (plan : Plan) (progress : Progress) : Step m Progress := do
  match pinnedRevision plan with
  | none =>
    reach c .pinned .skipped (some "sync policy follows the default branch")
    return progress
  | some revision =>
    if progress.isComplete .pinned then
      reach c .pinned .skipped resumedNote
      return progress
    call (c.workspace.log .info s!"Checking out {revision}")
    attempt (.revision revision) (c.source.checkout plan.checkout revision)
    reach c .pinned .ran none
    complete c plan progress .pinned

/-- The default branch is pulled. -/
def sync (c : Collaborators m) (plan : Plan) (progress : Progress) : Step m Progress := do
  if plan.syncPolicy = .pinned then
    reach c .synced .skipped (some "pinned revision is kept")
    return progress
  if plan.syncPolicy = .pinThenSync then
    call (c.workspace.log .warn
      "Pulling after checkout may move the working copy past the pinned revision")
  if progress.isComplete .synced then
    reach c .synced .skipped resumedNote
    return progress
  attempt .sync (c.source.pull plan.checkout)
  reach c .synced .ran none
  complete c plan progress .synced

/-- A setup step is carried out, unless an earlier run has completed it. -/
def provision (c : Collaborators m) (plan : Plan) (progress : Progress) (provisioner : Provisioner m)
    (stage : Stage) (wrap : ProvisionFailure → Failure) (title : String) : Step m Progress := do
  if progress.isComplete stage then
    reach c stage .skipped resumedNote
    return progress
  call (c.workspace.banner s!"{title} ({provisioner.name})")
  attempt wrap provisioner.setup
  reach c stage .ran none
  complete c plan progress stage

/-- The operator's guidance. -/
def guide (plan : Plan) (applied suggested : Option Path) : Step m Unit :=
  modify fun report => { report with
    guidance := some
      { configFile := plan.disassemblerConfigPath, key := plan.disassemblerKey, applied, suggested } }

/-- A failure to configure that leaves a tool found on the host unapplied. -/
def isForgiven : ConfigureFailure → Bool
  | .missingConfigFile _ => true
  | .missingSetting _ _ => true
  | _ => false

/-- The path of the tool is written to its place. A tool that was only found on the host may be left
unapplied. -/
def configure (c : Collaborators m) (plan : Plan) (progress : Progress) : Step m Unit := do
  match plan.disassembler with
  | none =>
    reach c .configured .skipped (some "no disassembler path available")
    guide plan none none
  | some tool =>
    match ← call (c.workspace.applySetting plan.disassemblerConfigPath plan.disassemblerKey tool) with
    | .ok _ =>
      reach c .configured .ran none
      guide plan (some tool) none
      let _ ← complete c plan progress .configured
    | .error failure =>
      if isForgiven failure && plan.disassemblerDetected then
        call (c.workspace.log .warn s!"Detected {tool.text} but left it unapplied: {failure.message}")
        reach c .configured .skipped (some s!"detected disassembler not applied: {failure.message}")
        guide plan none (some tool)
      else throw (.configure failure)

/-- The stages in order. -/
def stages (c : Collaborators m) (plan : Plan) : Step m Unit := do
  attempt .acquisition c.source.ensureAvailable
  let progress ← acquire c plan
  let progress ← complete c plan progress .cloned
  let progress ← pin c plan progress
  let progress ← sync c plan progress
  let progress ← provision c plan progress c.environment .envReady .environmentSetup
    "Setting up the angr analysis environment"
  let progress ← provision c plan progress c.packages .pkgsReady .packageInstall
    "Installing supporting packages"
  configure c plan progress

/-- A whole run: its result, and the report it leaves. -/
def run (c : Collaborators m) (plan : Plan) (report : Report) : m (Except Failure Unit × Report) := do
  match ← (stages c plan).run.run report with
  | (.ok (), report) =>
    let head ← c.source.headRevision plan.checkout
    c.workspace.log .debug (transition report .done .ran)
    return (.ok (), { report with head }.record .done .ran none)
  | (.error failure, report) => return (.error failure, report.fail failure)

end Bringup.Procedure
