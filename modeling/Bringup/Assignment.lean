import Bringup.Text.Pattern

/-!
Assignment lines such as `ADDR2LINE = '/usr/bin/addr2line'` in a configuration script.

* `quote`: a value as a string literal.
* `assign?`: a text with the value of its first assignment to a key replaced.
-/

namespace Bringup.Assignment

set_option autoImplicit false

open Bringup.Text

/-- A space or a tab. -/
def isInlineBlank (c : Char) : Bool := c == ' ' || c == '\t'

/-- No character of a line break. -/
def isInLine (c : Char) : Bool := c != '\r' && c != '\n'

/-- A character inside double quotes: a backslash and a double quote are escaped. -/
def escaped (c : Char) : List Char := if c == '\\' || c == '"' then ['\\', c] else [c]

/-- A value as a string literal, in single quotes unless it holds one. -/
def quoteChars (value : List Char) : List Char :=
  if value.contains '\'' then '"' :: (value.flatMap escaped ++ ['"'])
  else '\'' :: (value ++ ['\''])

/-- A value as a string literal. -/
def quote (value : String) : String := String.ofList (quoteChars value.toList)

/-- The indentation of a line. -/
def indent : Pattern := .seq .lineStart (.many isInlineBlank)

/-- An assignment to a key, up to the end of its line. -/
def assignTo (key : List Char) : Pattern :=
  .all [.literal key, .many isInlineBlank, .one (· == '='), .many isInLine]

/-- The text with its first assignment to `key` replaced, indentation kept. -/
def assignChars? (content key value : List Char) : Option (List Char) :=
  (Pattern.findSplit? indent (assignTo key) content).map fun (s, m, e) =>
    s.past.reverse ++ s.upTo m ++ key ++ [' ', '=', ' '] ++ quoteChars value ++ e.rest

/-- The text with its first assignment to `key` replaced, none when no line assigns to it. -/
def assign? (content key value : String) : Option String :=
  (assignChars? content.toList key.toList value.toList).map String.ofList

end Bringup.Assignment
