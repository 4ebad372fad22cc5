/-!
What can be wrong with the text of a regular expression, and how it is told.

The text is shown with marks below the place of the fault; a text of several lines has its lines
numbered.
-/

namespace Bringup.Text.Regex

set_option autoImplicit false

/-- What is wrong. -/
inductive Fault where
  | backreference
  | boundaryEnd
  | boundaryName
  | boundaryUnclosed
  | classEscape
  | classOrder
  | classRange
  | classUnclosed
  | countDigits
  | countNumber
  | countOrder
  | countUnclosed
  | escapeEnd
  | escapeUnknown
  | flagEnd
  | flagNegation
  | flagNegations
  | flagTwice
  | flagUnknown
  | groupUnclosed
  | groupUnopened
  | hexCode
  | hexDigit
  | hexEmpty
  | lookAround
  | nameCharacter
  | nameEmpty
  | nameEnd
  | nameTwice
  | notUtf8
  | propertyName
  | propertyUnknown
  | repeatsNothing
deriving DecidableEq, Repr

/-- The fault in words. -/
def Fault.message : Fault → String
  | backreference => "backreferences are not supported"
  | boundaryEnd =>
    "found either the beginning of a special word boundary or a bounded repetition on a \\b with an "
      ++ "opening brace, but no closing brace"
  | boundaryName =>
    "unrecognized special word boundary assertion, valid choices are: start, end, start-half or "
      ++ "end-half"
  | boundaryUnclosed =>
    "special word boundary assertion is either unclosed or contains an invalid character"
  | classEscape => "invalid escape sequence found in character class"
  | classOrder => "invalid character class range, the start must be <= the end"
  | classRange => "invalid range boundary, must be a literal"
  | classUnclosed => "unclosed character class"
  | countDigits => "repetition quantifier expects a valid decimal"
  | countNumber => "decimal literal invalid"
  | countOrder => "invalid repetition count range, the start must be <= the end"
  | countUnclosed => "unclosed counted repetition"
  | escapeEnd => "incomplete escape sequence, reached end of pattern prematurely"
  | escapeUnknown => "unrecognized escape sequence"
  | flagEnd => "expected flag but got end of regex"
  | flagNegation => "dangling flag negation operator"
  | flagNegations => "flag negation operator repeated"
  | flagTwice => "duplicate flag"
  | flagUnknown => "unrecognized flag"
  | groupUnclosed => "unclosed group"
  | groupUnopened => "unopened group"
  | hexCode => "hexadecimal literal is not a Unicode scalar value"
  | hexDigit => "invalid hexadecimal digit"
  | hexEmpty => "hexadecimal literal empty"
  | lookAround => "look-around, including look-ahead and look-behind, is not supported"
  | nameCharacter => "invalid capture group character"
  | nameEmpty => "empty capture group name"
  | nameEnd => "unclosed capture group name"
  | nameTwice => "duplicate capture group name"
  | notUtf8 => "pattern can match invalid UTF-8"
  | propertyName => "invalid Unicode character class"
  | propertyUnknown => "Unicode property not found"
  | repeatsNothing => "repetition operator missing expression"

/-- A stretch of the text, from one character up to another. -/
structure Span where
  start : Nat
  stop : Nat
deriving DecidableEq, Repr

/-- A fault and its place. -/
structure Error where
  fault : Fault
  span : Span
  /-- Where something stands that the fault is at odds with. -/
  earlier : Option Span := none
deriving DecidableEq, Repr

/-! ## Pictures -/

/-- The lines of a text. The last one may have no line break. -/
def textLines (text : List Char) : List (List Char) :=
  let parts := text.splitOn '\n'
  let broken := parts.dropLast.map fun line =>
    if line.getLast? == some '\r' then line.dropLast else line
  broken ++ parts.getLast?.toList.filter fun line => !line.isEmpty

/-- The line and the column of a place, both from zero. -/
def lineAndColumn (text : List Char) (offset : Nat) : Nat × Nat :=
  let before := text.take offset
  (before.count '\n', (before.reverse.takeWhile (· != '\n')).length)

/-- Marks below a line, under stretches from left to right. Each has at least one. -/
def marks : Nat → List (Nat × Nat) → List Char
  | _, [] => []
  | done, (start, stop) :: spans =>
    let gap := start - done
    let width := max 1 (stop - start)
    List.replicate gap ' ' ++ List.replicate width '^' ++ marks (done + gap + width) spans

/-- The stretches of a fault, from left to right. -/
def Error.spans (e : Error) : List Span :=
  match e.earlier with
  | none => [e.span]
  | some earlier =>
    if earlier.start < e.span.start ∨ (earlier.start = e.span.start ∧ earlier.stop ≤ e.span.stop) then
      [earlier, e.span]
    else [e.span, earlier]

/-- The stretches on a line, as columns. -/
def Error.onLine (e : Error) (text : List Char) (line : Nat) : List (Nat × Nat) :=
  e.spans.filterMap fun s =>
    let (startLine, start) := lineAndColumn text s.start
    let (stopLine, stop) := lineAndColumn text s.stop
    if startLine = line ∧ stopLine = line then some (start, stop) else none

/-- Notes on the stretches that run over several lines. -/
def Error.notes (e : Error) (text : List Char) : List String :=
  e.spans.filterMap fun s =>
    let (startLine, start) := lineAndColumn text s.start
    let (stopLine, stop) := lineAndColumn text s.stop
    if startLine = stopLine then none
    else some (s!"on line {startLine + 1} (column {start + 1}) through line {stopLine + 1} "
      ++ s!"(column {stop})")

/-- A line and the marks below it. The number is as wide as the greatest one; a single line has none. -/
def Error.picture (e : Error) (text : List Char) (width : Nat) (line : List Char) (i : Nat) : String :=
  let number := toString (i + 1)
  let label :=
    if width = 0 then "    "
    else String.ofList (List.replicate (width - number.length) ' ') ++ number ++ ": "
  let below := e.onLine text i
  label ++ String.ofList line ++ "\n"
    ++ (if below.isEmpty then ""
      else String.ofList (List.replicate label.length ' ' ++ marks 0 below) ++ "\n")

/-- The fault as it is told. -/
def Error.text (e : Error) (pattern : String) : String :=
  let text := pattern.toList
  let rows := textLines text
  let count := if text.getLast? == some '\n' then rows.length + 1 else rows.length
  let width := if count ≤ 1 then 0 else (toString count).length
  let pictures := String.join ((rows.zipIdx).map fun (row, i) => e.picture text width row i)
  let shown :=
    if text.contains '\n' then
      let divider := String.ofList (List.replicate 79 '~') ++ "\n"
      let notes := String.join ((e.notes text).map fun note => note ++ "\n")
      divider ++ pictures ++ divider ++ notes
    else pictures
  "regex parse error:\n" ++ shown ++ s!"error: {e.fault.message}"

end Bringup.Text.Regex
