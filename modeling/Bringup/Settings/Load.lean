import Bringup.Failure
import Bringup.Host
import Bringup.Settings.Decode

/-!
Settings from the files of the host.

A file that is named is the only one looked at. Otherwise the file of the working directory comes first,
then the one of the home directory, then the defaults. A file that is there has to be right.
-/

namespace Bringup.Settings

set_option autoImplicit false

/-- The name under which settings are logged. -/
def logTarget : String := "fiber_bootstrap::config"

/-- The name of a file of settings. -/
def fileName : String := ".fiber-bootstrap.toml"

/-- The file of the working directory. -/
def localPath (workdir : Path) : Path := workdir.child fileName

/-- The file of the home directory. -/
def globalPath (home : Option Path) : Option Path := home.map fun h => h.child fileName

/-- The settings of a file. -/
def read (file : Path) : HostM (Except Failure Settings) := do
  HostM.log .debug logTarget s!"Loading configuration from {file.text}"
  match ← HostM.readText file with
  | .error e => return .error (.io e)
  | .ok text => return (ofText text).mapError fun reason => .settings (.parsing file.text reason)

/-- The file to read: the one that is named, or the first that is there. -/
def choose (named : Option Path) (workdir : Path) : HostM (Option Path) := do
  match named with
  | some file => return some file
  | none =>
    if ← HostM.isFile (localPath workdir) then return some (localPath workdir)
    match globalPath (← get).home with
    | none => return none
    | some file => if ← HostM.isFile file then return some file else return none

/-- The settings that hold in a working directory. -/
def load (named : Option Path) (workdir : Path) : HostM (Except Failure Settings) := do
  match ← choose named workdir with
  | some file => read file
  | none =>
    HostM.log .debug logTarget "No configuration file found, using defaults"
    return .ok {}

end Bringup.Settings
