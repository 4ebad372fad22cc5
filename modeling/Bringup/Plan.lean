import Bringup.Failure
import Bringup.Settings
import Bringup.Text.Blank

/-!
A plan: settings that were found fit for a run, with every path resolved.
-/

namespace Bringup

set_option autoImplicit false

/-- Everything that a run needs to know. -/
structure Plan where
  repository : String
  revision : Option String
  checkout : Path
  syncPolicy : SyncPolicy
  rerunPolicy : RerunPolicy
  shell : String
  environmentScript : String
  packagesScript : String
  disassembler : Option Path
  /-- The disassembler was found on the host, and not given. -/
  disassemblerDetected : Bool
  disassemblerConfig : Path
  disassemblerKey : String
deriving DecidableEq, Repr

namespace Plan

/-- A revision without the blanks around it; a blank one counts as none. -/
def revisionOf (settings : SourceSettings) : Option String :=
  (settings.revision.map Text.trim).filter fun r => !r.isEmpty

/-- The plan that settings make in a working directory. A revision is needed unless the default branch
is followed. -/
def ofSettings (settings : Settings) (workdir : Path) : Except SettingsFailure Plan :=
  let source := settings.source
  let revision := revisionOf source
  if revision.isNone ∧ source.syncPolicy ≠ .latest then .error .missingRevision
  else if Text.allBlank source.checkoutDir then
    .error (.invalidValue "source.checkout_dir" "must not be empty")
  else if settings.disassembler.configFile.isAbsolute then
    .error (.invalidValue "disassembler.config_file" "must be relative to the checkout")
  else .ok {
    repository := source.repository
    revision
    checkout := workdir.child source.checkoutDir
    syncPolicy := source.syncPolicy
    rerunPolicy := source.rerunPolicy
    shell := settings.provision.shell
    environmentScript := settings.provision.environmentScript
    packagesScript := settings.provision.packagesScript
    disassembler := settings.disassembler.path
    disassemblerDetected := settings.disassembler.detected
    disassemblerConfig := settings.disassembler.configFile
    disassemblerKey := settings.disassembler.key }

/-- What a run aims at. Progress is taken over from a run with the same target. -/
def targetLabel (p : Plan) : String :=
  match p.syncPolicy, p.revision with
  | .latest, _ => "latest"
  | _, none => "latest"
  | .pinThenSync, some rev => rev ++ "+sync"
  | .pinned, some rev => rev

/-- The file that holds the disassembler setting. -/
def disassemblerConfigPath (p : Plan) : Path := p.checkout.join p.disassemblerConfig

end Plan

end Bringup
