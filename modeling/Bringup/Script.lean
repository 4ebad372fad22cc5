import Bringup.Host.Process
import Bringup.Procedure.Collaborators

/-!
Setup steps that are scripts of the checkout, run by a shell inside it.
-/

namespace Bringup.Script

set_option autoImplicit false

/-- The name under which scripts are logged. -/
def target : String := "fiber_bootstrap::bootstrap::provisioner"

/-- A script is run. -/
def setup (shell script : String) (workdir : Path) : HostM (Except ProvisionFailure Unit) := do
  let path := workdir.child script
  if !(← HostM.isFile path) then return .error (.missingScript path.text)
  HostM.log .info target s!"Running {shell} {script} in {workdir.text}"
  match ← HostM.stream shell [script] (some workdir) with
  | .error e => return .error (.launch script e)
  | .ok status =>
    if status.success then return .ok ()
    else return .error (.failed script (status.code?.map Int.ofNat))

/-- A script as a setup step. -/
def provisioner (shell script : String) (workdir : Path) : Provisioner HostM where
  name := script
  setup := setup shell script workdir

end Bringup.Script
