import Bringup.Console
import Bringup.Disassembler
import Bringup.Git
import Bringup.Procedure
import Bringup.Progress.Store
import Bringup.Script

/-!
The procedure on a host: `git`, the scripts of the checkout, and the host's own files.
-/

namespace Bringup

set_option autoImplicit false

/-- The name under which the procedure is logged. -/
def Procedure.logTarget : String := "fiber_bootstrap::bootstrap"

/-- A banner before a setup step: logged, and shown unless the run is quiet. -/
def HostM.banner (quiet : Bool) (message : String) : HostM Unit := do
  HostM.log .info Procedure.logTarget message
  if !quiet then
    let arrow ← HostM.paint .boldCyan "==>"
    let text ← HostM.paint .bold message
    HostM.warnLine s!"{arrow} {text}"

/-- The surroundings of a run on a host. -/
def Workspace.onHost (quiet : Bool) : Workspace HostM where
  present := HostM.present
  load := Progress.load
  store := Progress.save
  applySetting := Disassembler.apply
  now := HostM.now
  log level message := HostM.log level Procedure.logTarget message
  banner := HostM.banner quiet

/-- The collaborators that a plan names. -/
def Collaborators.ofPlan (plan : Plan) (quiet : Bool) : Collaborators HostM where
  source := Git.sourceControl "git"
  environment := Script.provisioner plan.shell plan.environmentScript plan.checkout
  packages := Script.provisioner plan.shell plan.packagesScript plan.checkout
  workspace := Workspace.onHost quiet

end Bringup
