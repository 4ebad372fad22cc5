import Bringup.Host.Process
import Bringup.Text.Quoted
import Bringup.ToolSearch.Source
import Bringup.Version

/-!
Looking for tools on the host.

The directories of the search path come first, then the user's own and those of the system. A tool is the
first file of its name. Answers are kept for some time.

* `ToolSearch.directories`: where tools are looked for.
* `ToolSearch.detect`: a tool by its name.
* `ToolSearch.detectRequired`: all tools that a run may need.
-/

namespace Bringup

set_option autoImplicit false

/-- What is known about a tool. -/
structure ToolStatus where
  available : Bool
  path : Option Path
  version : Option String
  source : InstallSource
  lastChecked : Moment
deriving DecidableEq, Repr

namespace ToolSearch

open Bringup.Text (Raw)

/-- How tools are looked for. -/
structure Policy where
  /-- The number of seconds for which an answer is kept. -/
  keepSeconds : Nat := 300
  /-- The nanoseconds beyond them. -/
  keepNanos : Nat := 0
  keep : Bool := true
  userDirectories : Bool := true
  systemDirectories : Bool := true
deriving DecidableEq, Repr, Inhabited

/-- A search with the answers that it keeps. -/
structure Detector where
  policy : Policy := {}
  kept : List (String × ToolStatus) := []
deriving Inhabited

/-- A computation with a detector on the host. -/
abbrev SearchM := StateT Detector HostM

/-- The name under which the search is logged. -/
def target : String := "fiber_bootstrap::tool_detector"

/-- The name of the disassembler. -/
def disassemblerTool : String := "addr2line"

/-- The tools that every run needs. -/
def requiredTools : List String := ["git", "bash"]

/-! ## Directories -/

/-- Every directory that comes into question, in order. -/
def candidates (policy : Policy) (searchPath : Option Raw) (home : Option Path) : List Path :=
  (searchPath.map searchDirectories).getD []
    ++ (if policy.userDirectories then
          (home.map fun h => (h.child ".local").child "bin").toList
        else [])
    ++ (if policy.systemDirectories then [⟨"/usr/local/bin"⟩, ⟨"/usr/bin"⟩, ⟨"/bin"⟩] else [])

/-- The paths, each unless a path before it is the same. -/
def distinct (paths : List Path) : List Path :=
  paths.foldl (fun kept p => if kept.any p.same then kept else kept ++ [p]) []

/-- The absolute directories that tools are looked for in. -/
def directories (policy : Policy) (searchPath : Option Raw) (home : Option Path) : List Path :=
  distinct ((candidates policy searchPath home).filter Path.isAbsolute)

/-! ## Detection -/

/-- The version that a tool tells of itself. -/
def probeVersion (tool : Path) : HostM (Option String) := do
  match ← HostM.execute tool.spelling ["--version"] none with
  | .error _ => return none
  | .ok output =>
    let said := if output.stdout.isEmpty then output.stderr else output.stdout
    return Version.ofText? (Text.Utf8.decodeLossy said)

/-- A text that may be missing, in log lines. -/
def describeOption (s : Option String) : String :=
  match s with
  | none => "None"
  | some text => s!"Some({text})"

/-- The first directory with a file of the tool's name. -/
def firstWith (name : String) : List Path → HostM (Option (Path × Path))
  | [] => return none
  | dir :: dirs => do
    let file := dir.child name
    if ← HostM.isFile file then return some (dir, file) else firstWith name dirs

/-- A tool is looked for, whatever was known before. -/
def detectNow (policy : Policy) (name : String) : HostM ToolStatus := do
  HostM.log .debug target s!"Starting real-time detection for {name}"
  let h ← get
  match ← firstWith name (directories policy h.searchPath h.home) with
  | some (dir, file) =>
    let version ← probeVersion file
    let source := InstallSource.ofDirectory dir
    let place := file.spelling.quoted
    let shown := describeOption (version.map Text.quoted)
    HostM.log .info target
      s!"Found {name} at {place} with version {shown} (source: {source.describe})"
    return { available := true, path := some file, version, source, lastChecked := ← HostM.clock }
  | none =>
    HostM.log .debug target s!"Tool {name} not found in any location"
    return { available := false, path := none, version := none, source := .notFound,
             lastChecked := ← HostM.clock }

/-- The nanoseconds of a reading of the clock. -/
def nanoseconds (m : Moment) : Nat := m.seconds * 1000000000 + m.nanos

/-- For how many nanoseconds an answer is kept. -/
def Policy.lifetime (policy : Policy) : Nat := policy.keepSeconds * 1000000000 + policy.keepNanos

/-- An answer from before is still kept now. -/
def isRecent (policy : Policy) (before now : Moment) : Bool :=
  nanoseconds before ≤ nanoseconds now && nanoseconds now - nanoseconds before < policy.lifetime

/-- The answer that is kept for a tool and still recent. -/
def recent? (d : Detector) (name : String) : HostM (Option ToolStatus) := do
  match d.kept.lookup name with
  | none => return none
  | some status => return if isRecent d.policy status.lastChecked (← HostM.clock) then some status else none

/-- A tool by its name. -/
def detect (name : String) : SearchM ToolStatus := do
  let d ← getThe Detector
  if !d.policy.keep then return ← detectNow d.policy name
  match ← recent? d name with
  | some status =>
    HostM.log .debug target s!"Using cached status for {name}: available={status.available}"
    return status
  | none =>
    let status ← detectNow d.policy name
    let shown := describeOption (status.path.map fun p => p.spelling.quoted)
    HostM.log .debug target
      s!"Real-time detection for {name}: available={status.available}, path={shown}"
    set { d with kept := (name, status) :: d.kept.filter fun k => k.1 != name }
    return status

/-- Each tool of a list, once. -/
def detectAll : List String → SearchM (List (String × ToolStatus))
  | [] => return []
  | name :: names => do
    let status ← detect name
    return (name, status) :: (← detectAll names)

/-- The names that a run may need. -/
def requiredNames (shell : String) : List String :=
  (requiredTools ++ [shell, disassemblerTool]).eraseDups

/-- Every tool that a run may need. -/
def detectRequired (shell : String) : SearchM (List (String × ToolStatus)) :=
  detectAll (requiredNames shell)

/-- The absolute path of the disassembler on this host. -/
def findDisassembler : SearchM (Option Path) := do
  return (← detect disassemblerTool).path.filter Path.isAbsolute

end ToolSearch

end Bringup
