import Bringup.Path
import Bringup.Policy

/-!
The settings of a run, and the values that hold when nothing else is said.
-/

namespace Bringup

set_option autoImplicit false

/-- Where the project comes from and how it is pinned. -/
structure SourceSettings where
  repository : String := "https://github.com/fiberx/fiber.git"
  /-- The revision to pin; nothing stands in for it. -/
  revision : Option String := none
  /-- The directory that is made under the working directory. -/
  checkoutDir : String := "fiber"
  syncPolicy : SyncPolicy := .pinned
  rerunPolicy : RerunPolicy := .fail
deriving DecidableEq, Repr, Inhabited

/-- The setup scripts that run from the checkout. -/
structure ProvisionSettings where
  shell : String := "bash"
  environmentScript : String := "setup_angr_env.sh"
  packagesScript : String := "install_pkgs.sh"
deriving DecidableEq, Repr, Inhabited

/-- The path of the disassembler and where to write it. -/
structure DisassemblerSettings where
  path : Option Path := none
  /-- Look for the tool on the host when no path is given. -/
  detect : Bool := true
  /-- The file inside the checkout that holds the setting. -/
  configFile : Path := ⟨"sym_tracer.py"⟩
  key : String := "ADDR2LINE"
  /-- The path was found on the host, and not given. -/
  detected : Bool := false
deriving DecidableEq, Repr, Inhabited

/-- All settings. -/
structure Settings where
  source : SourceSettings := {}
  provision : ProvisionSettings := {}
  disassembler : DisassemblerSettings := {}
deriving DecidableEq, Repr, Inhabited

end Bringup
