import Bringup.Host
import Bringup.Text.Blank

/-!
Starting programs and waiting for them.

* `HostM.capture`: a program whose output is kept.
* `HostM.stream`: a program whose output the operator sees, all of it on the standard error.
* `HostM.isAvailable`: a program can be started at all.
* `Output.failureMessage`: what a program that failed has to say.
-/

namespace Bringup

set_option autoImplicit false

open Bringup.Text (Bytes Raw)

/-- What a finished program leaves. -/
structure Output where
  status : ExitStatus
  stdout : Bytes := []
  stderr : Bytes := []
deriving DecidableEq, Repr

/-- The last words of a program: its standard error, or else its standard output, or else how it
ended. -/
def Output.failureMessage (o : Output) : String :=
  let err := Text.trim (Text.Utf8.decodeLossy o.stderr)
  let said := if err.isEmpty then Text.trim (Text.Utf8.decodeLossy o.stdout) else err
  if said.isEmpty then s!"exited with {o.status.describe}" else said

/-- The list of directories in a search path. -/
def searchDirectories (searchPath : Raw) : List Path := (searchPath.splitOn (.char ':')).map Path.mk

namespace Host

/-- The directories searched when no search path is set. -/
def defaultSearchPath : String := "/bin:/usr/bin"

/-- The program at a path. -/
def programAt (h : Host) (cwd : Place) (p : Path) : Except IoError (Place × List Rule) := do
  match ← h.files.find cwd p with
  | (place, .program rules true) => return (place, rules)
  | _ => throw .permissionDenied

/-- An error that leaves the program to be found elsewhere. -/
def passesOver (e : IoError) : Bool :=
  e == .permissionDenied || e == .notFound || e == .notADirectory

/-- The first program of a name in some directories. A file that may not be run is passed over, and
remembered. -/
def searchProgram (h : Host) (cwd : Place) (name : Raw) :
    List Path → (denied : Bool) → IoError → Except IoError (Place × List Rule)
  | [], denied, last => .error (if denied then .permissionDenied else last)
  | dir :: dirs, denied, _ =>
    match h.programAt cwd (dir.child name) with
    | .ok found => .ok found
    | .error e =>
      if passesOver e then h.searchProgram cwd name dirs (denied || e == .permissionDenied) e
      else .error e

/-- The program that a name stands for: a path if it holds a slash, else a name to search for. -/
def findProgram (h : Host) (cwd : Place) (name : Raw) : Except IoError (Place × List Rule) :=
  if name.isEmpty then .error .notFound
  else if name.contains (.char '/') then h.programAt cwd ⟨name⟩
  else
    h.searchProgram cwd name (searchDirectories (h.searchPath.getD defaultSearchPath)) false .notFound

/-- The directory that a program is to run in. -/
def childDirectory (h : Host) : Option Path → Except IoError Place
  | none => .ok h.cwd
  | some dir => do
    match ← h.files.find h.cwd dir with
    | (place, .directory) => return place
    | _ => throw .notADirectory

/-- The least number of bytes of an argument that is too long. -/
def argumentLimit : Nat := 131072

/-- What a program is started with: the directory it runs in, its own place and its rules. Nothing that
it is given holds a NUL byte, and it has to be found before its arguments are weighed. -/
def launch (h : Host) (name : Raw) (args : List String) (cwd : Option Path) :
    Except IoError (Place × Place × List Rule) := do
  let words := name :: args.map Raw.ofText
  let given := words ++ (cwd.map Path.spelling).toList
  if given.any fun s => s.contains (.char '\x00') then throw .nulInCommand
  let dir ← h.childDirectory cwd
  let (place, rules) ← h.findProgram dir name
  if words.any fun s => argumentLimit ≤ Raw.size s then throw .argumentsTooLong
  return (dir, place, rules)

end Host

namespace HostM

/-- A program is started and waited for. -/
def execute (name : Raw) (args : List String) (cwd : Option Path) :
    HostM (Except IoError Output) := do
  let h ← get
  match h.launch name args cwd with
  | .error e => return .error e
  | .ok (dir, place, rules) =>
    let rule := (rules.find? fun r => r.applies args).getD {}
    let call : Call := { program := place.getLastD [], args, cwd := dir, status := rule.status }
    set { h with files := h.files.makeAll rule.files, calls := h.calls ++ [call] }
    return .ok ⟨rule.status, rule.stdout, rule.stderr⟩

/-- The name under which processes are logged. -/
def processTarget : String := "fiber_bootstrap::common::command_utils"

/-- A program whose output is kept. -/
def capture (name : String) (args : List String) (cwd : Option Path) :
    HostM (Except IoError Output) := do
  log .debug processTarget ("Executing: " ++ name ++ " " ++ " ".intercalate args)
  execute name args cwd

/-- A program whose output the operator sees. -/
def stream (name : String) (args : List String) (cwd : Option Path) :
    HostM (Except IoError ExitStatus) := do
  log .debug processTarget ("Executing (streaming): " ++ name ++ " " ++ " ".intercalate args)
  match ← execute name args cwd with
  | .error e => return .error e
  | .ok output =>
    warnBytes (output.stdout ++ output.stderr)
    return .ok output.status

/-- A program can be started at all. -/
def isAvailable (name : String) : HostM Bool := do return (← execute name ["--version"] none).isOk

end HostM

end Bringup
