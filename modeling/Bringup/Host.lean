import Bringup.Host.FileTree
import Bringup.Host.Log
import Bringup.Instant

/-!
The host that the program works on, as a value.

A `HostM` computation reads and changes the files, starts programs, prints and logs. Everything that it
does can be read off the host that it leaves behind.
-/

namespace Bringup

set_option autoImplicit false

open Bringup.Text (Bytes Raw)

/-- A program that was run. -/
structure Call where
  /-- The name of the program's file. -/
  program : Raw
  args : List String
  /-- The directory that it ran in. -/
  cwd : Place
  /-- How it ended. -/
  status : ExitStatus
deriving DecidableEq, Repr

/-- The state of the host. -/
structure Host where
  files : FileTree := {}
  /-- The working directory of the program. -/
  cwd : Place := []
  /-- The home directory of the user. -/
  home : Option Path := none
  /-- The list of directories with programs, between colons. -/
  searchPath : Option Raw := none
  /-- What each reading of the clock gives. -/
  clock : Nat → Moment := fun _ => ⟨0, 0⟩
  /-- How often the clock was read. -/
  readings : Nat := 0
  /-- Output is coloured. -/
  colour : Bool := false
  /-- What is shown of the log on the console. -/
  console : LogFilter := {}
  calls : List Call := []
  stdout : Bytes := []
  stderr : Bytes := []
  logs : List LogRecord := []

/-- A computation on the host. -/
abbrev HostM := StateM Host

namespace HostM

/-! ## Clock, output and log -/

/-- The time. -/
def clock : HostM Moment := do
  let h ← get
  set { h with readings := h.readings + 1 }
  return h.clock h.readings

/-- The time as a date. -/
def now : HostM Instant := do return Instant.ofMoment (← clock)

/-- Text on the standard output. -/
def print (s : String) : HostM Unit := modify fun h => { h with stdout := h.stdout ++ Text.Utf8.encode s }

/-- A line on the standard output. -/
def printLine (s : String) : HostM Unit := print (s ++ "\n")

/-- Bytes on the standard error. -/
def warnBytes (bs : Bytes) : HostM Unit := modify fun h => { h with stderr := h.stderr ++ bs }

/-- A line on the standard error. -/
def warnLine (s : String) : HostM Unit := warnBytes (Text.Utf8.encode (s ++ "\n"))

/-- A record is logged at its time, and shown on the console if its filter says so. -/
def log (level : LogLevel) (target message : String) : HostM Unit := do
  let record : LogRecord := ⟨level, target, message⟩
  modify fun h => { h with logs := h.logs ++ [record] }
  let time ← now
  let h ← get
  if h.console.shows record then
    warnBytes (record.shown (time.secondsText ++ "Z") h.console.coloured)

/-! ## Files -/

/-- The working directory, unless it is gone. -/
def currentDirectory : HostM (Except IoError Path) := do
  let h ← get
  return if h.files.get? h.cwd = some .directory then .ok (Place.path h.cwd) else .error .notFound

/-- A path leads to something. -/
def present (p : Path) : HostM Bool := do
  let h ← get
  return h.files.present h.cwd p

/-- A path leads to a file. -/
def isFile (p : Path) : HostM Bool := do
  let h ← get
  return h.files.isFile h.cwd p

/-- A path leads to a directory. -/
def isDirectory (p : Path) : HostM Bool := do
  let h ← get
  return h.files.isDirectory h.cwd p

/-- The text of a file. -/
def readText (p : Path) : HostM (Except IoError String) := do
  let h ← get
  return h.files.readText h.cwd p

/-- New text in a file. -/
def writeText (p : Path) (s : String) : HostM (Except IoError Unit) := do
  let h ← get
  match h.files.write h.cwd p (Text.Utf8.encode s) with
  | .ok files => set { h with files }; return .ok ()
  | .error e => return .error e

end HostM

end Bringup
