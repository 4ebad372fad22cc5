import Bringup.Text.Terminal

/-!
Log records, and which of them are shown on the console.

A filter is a list of directives. The directive with the longest name that starts a record's target
decides on its level.
-/

namespace Bringup

set_option autoImplicit false

/-- How much a record matters. -/
inductive LogLevel where
  | error
  | warn
  | info
  | debug
  | trace
deriving DecidableEq, Repr, Inhabited

namespace LogLevel

/-- The levels, the most severe first. -/
def all : List LogLevel := [error, warn, info, debug, trace]

/-- The place among the levels. -/
def rank : LogLevel → Nat
  | error => 1
  | warn => 2
  | info => 3
  | debug => 4
  | trace => 5

/-- The name of a level. -/
def name : LogLevel → String
  | error => "ERROR"
  | warn => "WARN"
  | info => "INFO"
  | debug => "DEBUG"
  | trace => "TRACE"

/-- The colour of a level on a terminal. -/
def colour : LogLevel → Nat
  | error => 31
  | warn => 33
  | info => 32
  | debug => 34
  | trace => 36

/-- The level with a name, in letters of either case. -/
def ofName? (s : String) : Option LogLevel :=
  all.find? fun l => l.name.toLower == String.ofList (s.toList.map Char.toLower)

end LogLevel

/-- A message with its level and the part of the program that it comes from. -/
structure LogRecord where
  level : LogLevel
  target : String
  message : String
deriving DecidableEq, Repr

/-- The record on one line. -/
def LogRecord.text (r : LogRecord) : String := s!"{r.level.name} {r.target}: {r.message}"

/-- How much is shown of the records whose target starts with a name. -/
structure LogDirective where
  /-- The name; a directive without one applies to every target. -/
  name : Option String
  /-- The least severe level that is shown, as its rank; zero shows nothing. -/
  rank : Nat
deriving DecidableEq, Repr

namespace LogDirective

/-- The directive applies to a target. -/
def appliesTo (d : LogDirective) (target : String) : Bool :=
  d.name.all fun name => name.toList.isPrefixOf target.toList

/-- How much a directive says of its targets: the length of its name. -/
def weight (d : LogDirective) : Nat := (d.name.map String.utf8ByteSize).getD 0

/-- A directive takes the place of the one with its name, or comes last. -/
def insert (d : LogDirective) (ds : List LogDirective) : List LogDirective :=
  if ds.any fun e => e.name == d.name then ds.map fun e => if e.name == d.name then d else e
  else ds ++ [d]

end LogDirective

/-- What is shown on the console. -/
structure LogFilter where
  directives : List LogDirective := []
  /-- The messages that are shown at all. -/
  only : String → Bool := fun _ => true
  /-- The lines are coloured. -/
  coloured : Bool := false

/-- The filter shows a record: the last of the weightiest directives that apply decides on its level. -/
def LogFilter.shows (f : LogFilter) (r : LogRecord) : Bool :=
  let best := (f.directives.filter fun d => d.appliesTo r.target).foldl
    (fun best d => if best.any fun b => d.weight < b.weight then best else some d)
    (none : Option LogDirective)
  (best.any fun d => r.level.rank ≤ d.rank) && f.only r.message

/-- A name in a column of five characters. -/
def padded5 (s : String) : String := s ++ String.ofList (List.replicate (5 - s.length) ' ')

/-- The message with its further lines set in. -/
def indented (message : String) : String :=
  String.ofList (message.toList.flatMap fun c => if c == '\n' then ['\n', ' ', ' ', ' ', ' '] else [c])

/-- The text of a record at a time. -/
def LogRecord.line (r : LogRecord) (time : String) (coloured : Bool) : String :=
  let level := padded5 r.level.name
  if coloured then
    s!"\x1b[90m[\x1b[0m{time} \x1b[{r.level.colour}m{level}\x1b[0m {r.target}\x1b[90m]\x1b[0m "
      ++ indented r.message ++ "\n"
  else s!"[{time} {level} {r.target}] " ++ indented r.message ++ "\n"

/-- What the console shows at a time. Without colours there are no commands to a terminal at all. -/
def LogRecord.shown (r : LogRecord) (time : String) (coloured : Bool) : Text.Bytes :=
  let line := Text.Utf8.encode (r.line time coloured)
  if coloured then line else Text.Terminal.plainBytes line

end Bringup
