import Bringup.Command.Status
import Bringup.Host.Log.Spec
import Bringup.Options.CommandLine

/-!
The whole program: a command line and an environment, an exit status.
-/

namespace Bringup

set_option autoImplicit false

/-- The variables of the environment. -/
abbrev Environment := List (String × String)

/-- A command is carried out. -/
def Options.perform (o : Options) : HostM (Except Failure Unit) :=
  match o.command with
  | .run => Command.runMain o
  | .status => Command.statusMain o
  | .guide => Command.guideMain o

namespace Program

/-- The variables that stand in for options. -/
def fallbacks (env : Environment) : Variables :=
  { revision := env.lookup "FIBER_REVISION", disassembler := env.lookup "FIBER_DISASSEMBLER" }

/-- Colours are forced on; the output is no terminal. -/
def forcesColour (env : Environment) : Bool := (env.lookup "CLICOLOR_FORCE").any (· != "0")

/-- A variable is set to something. -/
def isSet (env : Environment) (name : String) : Bool := (env.lookup name).any fun v => !v.isEmpty

/-- The log is coloured: as its own variable says, or else if colours are asked for and not
forbidden. -/
def coloursLog (env : Environment) : Bool :=
  match env.lookup "RUST_LOG_STYLE" with
  | some "always" => true
  | some "never" => false
  | _ => isSet env "CLICOLOR_FORCE" && !isSet env "NO_COLOR"

/-- What is to be shown of the log. -/
def logSpec (env : Environment) : LogSpec := LogSpec.ofText ((env.lookup "RUST_LOG").getD "")

/-- The level of the log that the options ask for. -/
def logLevel (o : Options) : LogLevel :=
  match o.verbose with
  | 0 => .warn
  | 1 => .info
  | 2 => .debug
  | _ => .trace

/-- The log is set up. What cannot be read is complained of, unless all is quiet; a quiet program shows
nothing of the log. -/
def setUpLog (o : Options) (env : Environment) : HostM Unit := do
  if o.quiet then modify fun h => { h with console := {} }
  else
    let spec := logSpec env
    for complaint in spec.complaints do
      HostM.warnLine s!"warning: {complaint}, ignoring it"
    modify fun h => { h with console := spec.filter (logLevel o) (coloursLog env) }

/-- The answer to a command line that leads to no command. -/
def explain (usage : Usage) : HostM Int := do
  if usage.isAnswer then HostM.printLine usage.firstLine
  else HostM.warnLine (usage.firstLine ++ "\n\nFor more information, try '--help'.")
  return usage.exitCode

/-- A failure on the standard error. -/
def complain (failure : Failure) : HostM Unit := do
  let word ← HostM.paint .boldRed "Error:"
  HostM.warnLine s!"{word} {failure.message}"
  if failure.isStepFailure then HostM.warnLine s!"  stage failed with {failure.kind.name}"

/-- The program from its arguments to its exit status. -/
def start (env : Environment) (args : List String) : HostM Int := do
  match CommandLine.parse (fallbacks env) args with
  | .error usage => explain usage
  | .ok options =>
    modify fun h => { h with colour := forcesColour env }
    setUpLog options env
    match ← options.perform with
    | .ok () => return 0
    | .error failure =>
      complain failure
      return failure.exitCode

end Program

end Bringup
