import Bringup.Host.IoError

/-!
How a child process ended, as its wait status says it.
-/

namespace Bringup

set_option autoImplicit false

/-- How a child process ended. -/
inductive ExitStatus where
  /-- It exited with a code. -/
  | exited (code : Nat)
  /-- A signal killed it, perhaps leaving a core file. -/
  | killed (signal : Nat) (core : Bool)
  /-- A signal stopped it for now. -/
  | stopped (signal : Nat)
  /-- It goes on after a stop. -/
  | continued
  /-- A raw status that says none of these, as its 32 bits. -/
  | unclear (word : Nat)
deriving DecidableEq, Repr

namespace ExitStatus

/-- The names of the signals. -/
def signalNames : List (Nat × String) := [
  (1, "SIGHUP"), (2, "SIGINT"), (3, "SIGQUIT"), (4, "SIGILL"), (5, "SIGTRAP"), (6, "SIGABRT"),
  (7, "SIGBUS"), (8, "SIGFPE"), (9, "SIGKILL"), (10, "SIGUSR1"), (11, "SIGSEGV"), (12, "SIGUSR2"),
  (13, "SIGPIPE"), (14, "SIGALRM"), (15, "SIGTERM"), (16, "SIGSTKFLT"), (17, "SIGCHLD"),
  (18, "SIGCONT"), (19, "SIGSTOP"), (20, "SIGTSTP"), (21, "SIGTTIN"), (22, "SIGTTOU"), (23, "SIGURG"),
  (24, "SIGXCPU"), (25, "SIGXFSZ"), (26, "SIGVTALRM"), (27, "SIGPROF"), (28, "SIGWINCH"),
  (29, "SIGIO"), (30, "SIGPWR"), (31, "SIGSYS")]

/-- How many values 32 bits have. -/
def wordLimit : Nat := 0x100000000

/-- The reading of a raw wait status, a number of 32 bits: the low seven bits hold the signal, the next
bit tells of a core file, and the next eight bits hold the code. -/
def ofWait (raw : Int) : ExitStatus :=
  let word := (raw % wordLimit).toNat
  let signal := word % 0x80
  if signal = 0 then exited (word / 0x100 % 0x100)
  else if word % 0x100 = 0x7F then stopped (word / 0x100 % 0x100)
  else if word = 0xFFFF then continued
  else if signal = 0x7F then unclear word
  else killed signal (word / 0x80 % 2 == 1)

/-- The exit code, if the process exited. -/
def code? : ExitStatus → Option Nat
  | exited code => some code
  | _ => none

/-- The process exited with code zero. -/
def success (s : ExitStatus) : Bool := s.code? == some 0

/-- A signal's number and its name, if it has one. -/
def describeSignal (signal : Nat) : String :=
  match signalNames.lookup signal with
  | some name => s!"{signal} ({name})"
  | none => s!"{signal}"

/-- The status in words. -/
def describe : ExitStatus → String
  | exited code => s!"exit status: {code}"
  | killed signal core =>
    s!"signal: {describeSignal signal}" ++ if core then " (core dumped)" else ""
  | stopped signal => s!"stopped (not terminated) by signal: {describeSignal signal}"
  | continued => "continued (WIFCONTINUED)"
  | unclear word =>
    let value := Int.bmod word wordLimit
    s!"unrecognised wait status: {value} 0x" ++ String.ofList (Nat.toDigits 16 word)

theorem success_iff (s : ExitStatus) : s.success = true ↔ s = exited 0 := by
  cases s <;> simp [success, code?]

end ExitStatus

end Bringup
