import Bringup.Options
import Bringup.Settings.Load
import Bringup.ToolSearch

/-!
The settings that a command works with: those of the files, then what the command line says, then a
disassembler found on the host.
-/

namespace Bringup

set_option autoImplicit false

/-- The working directory that the command line names, or the current one. -/
def Options.workdirOn (o : Options) : HostM (Except Failure Path) := do
  match o.workdir with
  | some dir => return .ok dir
  | none => return (← HostM.currentDirectory).mapError .io

/-- The settings of the files and the command line. -/
def Options.settings (o : Options) (workdir : Path) : HostM (Except Failure Settings) := do
  return (← Settings.load o.config workdir).map o.applyTo

/-- What is made of the settings and the working directory. -/
def Options.withSettings {m : Type → Type} [Monad m] [MonadLiftT HostM m] {α : Type} (o : Options)
    (make : Settings → Path → m α) : m (Except Failure α) := do
  match ← o.workdirOn with
  | .error e => return .error e
  | .ok workdir =>
    match ← o.settings workdir with
    | .error e => return .error e
    | .ok settings => return .ok (← make settings workdir)

/-- The name under which the run command is logged. -/
def Options.logTarget : String := "fiber_bootstrap::handlers::run"

/-- Settings with the host's disassembler, when none is given and one is to be looked for. -/
def Settings.withDetected (s : Settings) : HostM Settings := do
  if s.disassembler.path.isNone && s.disassembler.detect then
    match ← (ToolSearch.findDisassembler).run' {} with
    | none => return s
    | some found =>
      HostM.log .info Options.logTarget s!"Using detected disassembler {found.text}"
      return { s with disassembler := { s.disassembler with path := some found, detected := true } }
  else return s

/-- All settings that a command works with. -/
def Options.resolve (o : Options) (workdir : Path) : HostM (Except Failure Settings) := do
  match ← o.settings workdir with
  | .error e => return .error e
  | .ok settings => return .ok (← settings.withDetected)

end Bringup
