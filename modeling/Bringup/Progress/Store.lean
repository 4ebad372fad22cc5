import Bringup.Host
import Bringup.Progress.Reader

/-!
The record of progress as a file inside the checkout.

It lies among the files of source control, so that it is not taken for a part of the project.
-/

namespace Bringup.Progress

set_option autoImplicit false

/-- The name under which the record is logged. -/
def logTarget : String := "fiber_bootstrap::bootstrap::state"

/-- The directory of source control in a checkout. -/
def directory (checkout : Path) : Path := checkout.child ".git"

/-- The file of the record in a checkout. -/
def path (checkout : Path) : Path := (directory checkout).child "fiber-bootstrap.json"

/-- The record in a checkout. One that cannot be read counts as none. -/
def load (checkout : Path) : HostM (Option Progress) := do
  match ← HostM.readText (path checkout) with
  | .error _ => return none
  | .ok text =>
    match ofText text with
    | .ok progress => return some progress
    | .error e =>
      HostM.log .warn logTarget s!"Ignoring unreadable state file {(path checkout).text}: {e.message}"
      return none

/-- The record is written, if the checkout has a directory of source control. -/
def save (checkout : Path) (p : Progress) : HostM (Except IoError Unit) := do
  if ← HostM.present (directory checkout) then HostM.writeText (path checkout) p.text
  else
    HostM.log .debug logTarget s!"No .git directory in {checkout.text}, not recording progress"
    return .ok ()

end Bringup.Progress
