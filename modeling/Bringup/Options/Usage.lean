import Bringup.Options
import Bringup.Text.Terminal

/-!
The options by name, and what can be wrong with a command line.
-/

namespace Bringup

set_option autoImplicit false

/-- The options, and the two flags that ask for a text instead of a command. -/
inductive Switch where
  | config
  | workdir
  | revision
  | sync
  | resume
  | disassembler
  | verbose
  | quiet
  | json
  | help
  | version
deriving DecidableEq, Repr, Inhabited

namespace Switch

/-- Every option, in order. -/
def all : List Switch :=
  [config, workdir, revision, sync, resume, disassembler, verbose, quiet, json, help, version]

/-- The name after two dashes. -/
def long : Switch → String
  | config => "config"
  | workdir => "workdir"
  | revision => "revision"
  | sync => "sync"
  | resume => "resume"
  | disassembler => "disassembler"
  | verbose => "verbose"
  | quiet => "quiet"
  | json => "json"
  | help => "help"
  | version => "version"

/-- The letter after one dash. -/
def short? : Switch → Option Char
  | config => some 'c'
  | workdir => some 'C'
  | verbose => some 'v'
  | quiet => some 'q'
  | help => some 'h'
  | version => some 'V'
  | _ => none

/-- The name of the value that the option takes. -/
def valueName? : Switch → Option String
  | config => some "FILE"
  | workdir => some "DIR"
  | revision => some "REV"
  | sync => some "POLICY"
  | disassembler => some "PATH"
  | _ => none

/-- The option takes a value. -/
def takesValue (s : Switch) : Bool := s.valueName?.isSome

/-- The option as messages show it. -/
def display (s : Switch) : String :=
  match s.valueName? with
  | some value => s!"--{s.long} <{value}>"
  | none => if s = verbose then "--verbose..." else s!"--{s.long}"

/-- The option is known to a command, or only in front of one. The version is only told in front. -/
def knownAt (inCommand : Bool) (s : Switch) : Bool := !(inCommand && s == version)

/-- The option with a long name. -/
def ofLong? (inCommand : Bool) (name : String) : Option Switch :=
  all.find? fun s => s.long == name && s.knownAt inCommand

/-- The option with a letter. -/
def ofShort? (inCommand : Bool) (c : Char) : Option Switch :=
  all.find? fun s => s.short? == some c && s.knownAt inCommand

end Switch

/-- What help is asked for. -/
inductive HelpTopic where
  | program
  | command (command : Command)
  /-- The help about help. -/
  | help
deriving DecidableEq, Repr

/-- Why a command line does not lead to a command. -/
inductive Usage where
  | valueRequired (option : Switch)
  | invalidValue (option : Switch) (value : String)
  | unknownArgument (argument : String)
  | unknownCommand (name : String)
  | repeated (option : Switch)
  | unexpectedValue (option : Switch) (value : String)
  /-- Help is asked for, at length or in short. -/
  | help (topic : HelpTopic) (atLength : Bool)
  | version
deriving DecidableEq, Repr

namespace Usage

/-- The name of the program. -/
def programName : String := "fiber-bootstrap"

/-- The version of the program. -/
def programVersion : String := "0.3.0"

/-- What the program does, in a line. -/
def about : String := "Fetch fiber at a pinned revision and provision its angr environment"

/-- What the program does, at length. -/
def longAbout : String :=
  "Clones the fiber binary-analysis tool, pins it to a fixed revision, runs its environment setup and "
    ++ "package installation scripts, and writes the addr2line location into its configuration. Run "
    ++ "without arguments to perform the whole procedure."

/-- The start of what is printed. What stands on the command line is shown without commands to a
terminal. -/
def message : Usage → String
  | valueRequired option =>
    s!"error: a value is required for '{option.display}' but none was supplied"
  | invalidValue option value =>
    s!"error: invalid value '{Text.Terminal.plain value}' for '{option.display}'"
  | unknownArgument argument => s!"error: unexpected argument '{Text.Terminal.plain argument}' found"
  | unknownCommand name => s!"error: unrecognized subcommand '{Text.Terminal.plain name}'"
  | repeated option => s!"error: the argument '{option.display}' cannot be used multiple times"
  | unexpectedValue option value =>
    s!"error: unexpected value '{Text.Terminal.plain value}' for '{option.display}' found; "
      ++ "no more were expected"
  | help .program atLength => if atLength then longAbout else about
  | help (.command command) _ => command.about
  | help .help _ => "Print this message or the help of the given subcommand(s)"
  | version => s!"{programName} {programVersion}"

/-- The first line of what is printed, without the line break, which may have a carriage return. -/
def firstLine (u : Usage) : String :=
  let text := u.message.toList
  let line := text.takeWhile (· != '\n')
  let broken := line.length < text.length
  String.ofList (if broken && line.getLast? == some '\r' then line.dropLast else line)

/-- The text is an answer, and not a complaint. -/
def isAnswer : Usage → Bool
  | help _ _ => true
  | version => true
  | _ => false

/-- The exit status. -/
def exitCode (u : Usage) : Int := if u.isAnswer then 0 else 2

end Usage

end Bringup
