import Bringup.Decimal.Shortest
import Bringup.Mismatch
import Bringup.Text.Quoted

/-!
TOML documents as trees of values, each with its place in the text.

* `Toml.Value`: a value. A date or a time is kept only as such.
* `Toml.Fault.report`: a mismatch with the line of the text that it is about.
-/

namespace Bringup.Toml

set_option autoImplicit false

/-- A stretch of a text, counted in characters from its start. -/
structure Span where
  start : Nat
  stop : Nat
deriving DecidableEq, Repr, Inhabited

/-- The name of an entry. -/
structure Key where
  name : String
  span : Span
deriving DecidableEq, Repr, Inhabited

/-- How a table came to be, which decides how it may still grow. -/
inductive TableKind where
  /-- Between braces: it is complete. -/
  | inline
  /-- By a header of its own. -/
  | header
  /-- By a longer header, before any of its own. -/
  | implicit
  /-- By a dotted key. -/
  | dotted
deriving DecidableEq, Repr

/-- A value with its place. -/
inductive Value where
  | string (span : Span) (text : String)
  | integer (span : Span) (value : Int)
  | float (span : Span) (value : Decimal.Double)
  /-- A number with a fraction or an exponent, beyond the largest there is. -/
  | overflow (span : Span)
  | boolean (span : Span) (value : Bool)
  /-- A date, a time or both. -/
  | time (span : Span)
  /-- A list in brackets, or the tables of headers in double brackets. -/
  | array (span : Span) (ofTables : Bool) (items : List Value)
  | table (span : Span) (kind : TableKind) (entries : List (Key × Value))
deriving Repr, Inhabited

/-- An entry of a table. -/
abbrev Entry := Key × Value

namespace Value

/-- The place of a value: for a table its header, or the key that made it. -/
def span : Value → Span
  | string span _ => span
  | integer span _ => span
  | float span _ => span
  | overflow span => span
  | boolean span _ => span
  | time span => span
  | array span _ _ => span
  | table span _ _ => span

/-- What a value is, for a message. -/
def found : Value → Found
  | string _ text => .string (Text.quoted text)
  | integer _ value => .integer value
  | float _ value => .float value.positional
  | overflow _ => .float "inf"
  | boolean _ value => .boolean value
  | time _ => .map
  | array _ _ _ => .sequence
  | table _ _ _ => .map

/-- The name of a value's type. -/
def typeName : Value → String
  | string _ _ => "string"
  | integer _ _ => "integer"
  | float _ _ => "float"
  | overflow _ => "float"
  | boolean _ _ => "boolean"
  | time _ => "datetime"
  | array _ _ _ => "array"
  | table _ _ _ => "table"

/-- A test of every integer in a value, where no number may overflow. -/
def allIntegers (test : Int → Bool) : Value → Bool
  | integer _ value => test value
  | overflow _ => false
  | array _ _ items => itemsPass test items
  | table _ _ entries => entriesPass test entries
  | _ => true
where
  /-- The test of the items of an array. -/
  itemsPass (test : Int → Bool) : List Value → Bool
    | [] => true
    | item :: items => allIntegers test item && itemsPass test items
  /-- The test of the entries of a table. -/
  entriesPass (test : Int → Bool) : List (Key × Value) → Bool
    | [] => true
    | (_, value) :: entries => allIntegers test value && entriesPass test entries

end Value

/-- A value that does not fit, and where it stands. -/
structure Fault where
  reason : Mismatch
  span : Span
deriving DecidableEq, Repr

/-- The line that holds a position, and the lines and characters before it. -/
def locate (position : Nat) (text : List Char) : Nat × Nat × List Char :=
  let before := text.take position
  let lead := (before.reverse.takeWhile (· != '\n')).reverse
  let line := lead ++ (text.drop position).takeWhile (· != '\n')
  (before.count '\n', lead.length, line)

/-- The number of bytes of a text. -/
def byteLength (cs : List Char) : Nat := cs.foldl (fun n c => n + c.utf8Size) 0

/-- The report of a fault: its place, its line with a mark below, and the reason. The mark is as long
as the value in bytes, but ends with the line. -/
def Fault.report (fault : Fault) (text : String) : String :=
  let cs := text.toList
  let (row, column, line) := locate fault.span.start cs
  let width := byteLength ((cs.drop fault.span.start).take (fault.span.stop - fault.span.start))
  let mark := max 1 (min width (byteLength line - column))
  let number := toString (row + 1)
  let gutter := String.ofList (List.replicate (number.length + 1) ' ')
  s!"TOML parse error at line {number}, column {column + 1}\n{gutter}|\n{number} | "
    ++ String.ofList line ++ s!"\n{gutter}|"
    ++ String.ofList (List.replicate (column + 1) ' ' ++ List.replicate mark '^')
    ++ s!"\n{fault.reason.message}\n"

end Bringup.Toml
