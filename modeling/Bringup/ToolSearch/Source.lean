import Bringup.Json.Value
import Bringup.Path

/-!
Where a tool was installed from, judged by the directory that it stands in.
-/

namespace Bringup

set_option autoImplicit false

/-- Where a tool was installed from. -/
inductive InstallSource where
  | systemPath
  | userLocal
  | packageManager (name : String)
  | manual
  | notFound
deriving DecidableEq, Repr

namespace InstallSource

/-- A list occurs in another as one piece. -/
def occursIn (needle : List Char) : List Char → Bool
  | [] => needle.isEmpty
  | c :: cs => needle.isPrefixOf (c :: cs) || occursIn needle cs

/-- The source that a directory tells of. Letters count in either case; all that is looked for is
ASCII. -/
def ofDirectory (dir : Path) : InstallSource :=
  let cs := dir.text.toList.map Char.toLower
  if occursIn ".local".toList cs then .userLocal
  else if occursIn "homebrew".toList cs || occursIn "linuxbrew".toList cs then .packageManager "brew"
  else if cs == "/usr/bin".toList || cs == "/bin".toList then .packageManager "system"
  else if "/usr/local".toList.isPrefixOf cs then .systemPath
  else .manual

/-- The source as JSON. -/
def json : InstallSource → Json
  | systemPath => .str "SystemPath"
  | userLocal => .str "UserLocal"
  | packageManager name => .obj [("PackageManager", .str name)]
  | manual => .str "Manual"
  | notFound => .str "NotFound"

/-- The source in log lines. -/
def describe : InstallSource → String
  | systemPath => "SystemPath"
  | userLocal => "UserLocal"
  | packageManager name => s!"PackageManager(\"{name}\")"
  | manual => "Manual"
  | notFound => "NotFound"

end InstallSource

end Bringup
