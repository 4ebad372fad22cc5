import Bringup.Program
import Bringup.Snapshot
import Std.Time.DateTime.Timestamp

/-!
The command line.

The files that a command may look at are read first, and the program runs on them. Other programs are
not started from here: a command that needs one finds it missing.
-/

namespace Bringup.Main

set_option autoImplicit false

/-- The variables of the environment that the program looks at. -/
def environmentNames : List String :=
  ["HOME", "PATH", "FIBER_REVISION", "FIBER_DISASSEMBLER", "CLICOLOR_FORCE", "NO_COLOR", "RUST_LOG"]

/-- The environment, as far as the program looks at it. -/
def readEnvironment : IO Environment :=
  environmentNames.filterMapM fun name => do
    return (← IO.getEnv name).map fun value => (name, value)

/-- What stands at a path; the contents of a file only if they are wanted. -/
def readNode (wanted : Bool) (p : Path) : IO (Option Node) := do
  let file := (← IO.currentDir) / p.text
  if !(← file.pathExists) then return none
  if ← file.isDir then return some .directory
  if !wanted then return some (.file [])
  match ← (IO.FS.readBinFile file).toBaseIO with
  | .ok contents => return some (.file contents.toList)
  | .error _ => return some (.file [])

/-- A host with what stands at some paths. -/
def readFiles (wanted : Bool) (host : Host) (paths : List Path) : IO Host :=
  paths.foldlM
    (fun host p => do
      match ← readNode wanted p with
      | some node => return { host with files := host.files.plant (Snapshot.placeOf host.cwd p) node }
      | none => return host)
    host

/-- The host before the program runs. -/
def readHost (env : Environment) : IO Host := do
  let stamp ← Std.Time.Timestamp.now
  let nanos := stamp.toNanosecondsSinceUnixEpoch.val.toNat
  let here := (← IO.currentDir).toString
  let cwd := Snapshot.placeOf [] ⟨here⟩
  return {
    files := FileTree.makeAll {} [(cwd, none)]
    cwd
    home := ((env.lookup "HOME").filter fun h => !h.isEmpty).map Path.ofText
    searchPath := (env.lookup "PATH").map Text.Raw.ofText
    clock := fun _ => ⟨nanos / 1000000000, nanos % 1000000000⟩ }

/-- The host with the files that the options and the settings name. -/
def readNamed (host : Host) (o : Options) : IO Host := do
  let workdir := o.workdir.getD (Place.path host.cwd)
  let host ← readFiles true host (Snapshot.settingsFiles o workdir host.home)
  match (((o.settings workdir).run host).run).1 with
  | .error _ => return host
  | .ok settings =>
    let host ← readFiles true host (Snapshot.checkoutFiles settings workdir)
    readFiles false host (Snapshot.toolFiles settings host.searchPath host.home)

/-- The program on the files of the real host: its exit status. -/
def start (args : List String) : IO UInt32 := do
  let env ← readEnvironment
  let host ← readHost env
  let host ← match CommandLine.parse (Program.fallbacks env) args with
    | .ok o => readNamed host o
    | .error _ => pure host
  let (code, host) := ((Program.start env args).run host).run
  (← IO.getStdout).write ⟨host.stdout.toArray⟩
  (← IO.getStderr).write ⟨host.stderr.toArray⟩
  return code.toNat.toUInt32

end Bringup.Main

/-- The program on the real command line. -/
def main (args : List String) : IO UInt32 := Bringup.Main.start args
