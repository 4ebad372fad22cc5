import Bringup.Options
import Bringup.Settings.Load
import Bringup.ToolSearch
import Bringup.Progress.Store

/-!
The paths that the program may look at, so that a host can be made of them.
-/

namespace Bringup.Snapshot

set_option autoImplicit false

/-- The files that settings may come from. -/
def settingsFiles (o : Options) (workdir : Path) (home : Option Path) : List Path :=
  o.config.toList ++ [Settings.localPath workdir] ++ (Settings.globalPath home).toList

/-- The files of the checkout that settings name, and the tool that they configure. -/
def checkoutFiles (s : Settings) (workdir : Path) : List Path :=
  let checkout := workdir.child s.source.checkoutDir
  [checkout, Progress.directory checkout, Progress.path checkout,
    checkout.join s.disassembler.configFile, checkout.child s.provision.environmentScript,
    checkout.child s.provision.packagesScript] ++ s.disassembler.path.toList

/-- The files that may be tools. -/
def toolFiles (s : Settings) (searchPath : Option Text.Raw) (home : Option Path) : List Path :=
  (ToolSearch.directories {} searchPath home).flatMap fun dir =>
    (ToolSearch.requiredNames s.provision.shell).map fun name => dir.child name

/-- The names on the way to a path, without a look at the files. -/
def placeOf (cwd : Place) (p : Path) : Place :=
  p.components.foldl
    (fun place component =>
      match component with
      | .root => []
      | .current => place
      | .parent => place.dropLast
      | .normal name => place ++ [name])
    (if p.isAbsolute then [] else cwd)

end Bringup.Snapshot
