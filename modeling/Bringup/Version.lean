import Bringup.Text.Digit
import Bringup.Text.Pattern

/-!
Version numbers in the text that a program prints about itself.

A number of three dotted parts, with a suffix such as `-rc.1` or `+build`, is taken before a number of
two parts, wherever the two stand.
-/

namespace Bringup.Version

set_option autoImplicit false

open Bringup.Text

/-- A run of digits. -/
def digits : Pattern := .some isDigit

/-- The point between two parts. -/
def dot : Pattern := .one (· == '.')

/-- A character that a suffix may hold after its sign. -/
def isSuffixChar (c : Char) : Bool := c.isAlphanum || c == '-' || c == '.'

/-- A sign and at least one character after it. -/
def suffix : Pattern := .seq (.one fun c => c == '+' || c == '-') (.some isSuffixChar)

/-- Three dotted parts and perhaps a suffix, as whole words. -/
def triple : Pattern :=
  .all [.boundary, digits, dot, digits, dot, digits, .optional suffix, .boundary]

/-- Two dotted parts, as whole words. -/
def pair : Pattern := .all [.boundary, digits, dot, digits, .boundary]

/-- The characters of the preferred occurrence of a pattern. -/
def occurrence? (p : Pattern) (text : List Char) : Option (List Char) :=
  (p.find? text).map fun (s, e) => s.upTo e

/-- The version that a text names. -/
def ofText? (text : String) : Option String :=
  ((occurrence? triple text.toList).or (occurrence? pair text.toList)).map String.ofList

end Bringup.Version
