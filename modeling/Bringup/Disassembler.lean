import Bringup.Assignment
import Bringup.Failure
import Bringup.Host

/-!
The path of the disassembler in the tool's own configuration file.
-/

namespace Bringup.Disassembler

set_option autoImplicit false

/-- The name under which the setting is logged. -/
def target : String := "fiber_bootstrap::bootstrap::disassembler"

/-- The path has to be absolute and to lead to a file. -/
def validate (tool : Path) : HostM (Except ConfigureFailure Unit) := do
  if tool.isAbsolute && (← HostM.isFile tool) then return .ok ()
  else return .error (.invalidDisassembler tool.text)

/-- The first assignment to a key in a file is given the path as its value; tells whether that changed
the file. -/
def apply (file : Path) (key : String) (tool : Path) : HostM (Except ConfigureFailure Bool) :=
  ExceptT.run do
    ExceptT.mk (validate tool)
    if !(← HostM.isFile file) then throw (.missingConfigFile file.text)
    let content ← ExceptT.mk (do return (← HostM.readText file).mapError .io)
    match Assignment.assign? content key tool.text with
    | none => throw (.missingSetting key file.text)
    | some updated =>
      if updated = content then
        HostM.log .info target s!"{key} already set in {file.text}"
        return false
      else
        ExceptT.mk (do return (← HostM.writeText file updated).mapError .io)
        HostM.log .info target s!"Set {key} = {tool.text} in {file.text}"
        return true

end Bringup.Disassembler
