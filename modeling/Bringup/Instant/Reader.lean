import Bringup.Instant
import Bringup.Text.Blank

/-!
Reading an instant from text, leniently.

The form is a date, one of `t`, `T` and a blank, a time of day, and an offset from UTC. Blanks may stand
before each number and around each separator; a number may be shorter than its usual width; the year
may be signed and then be of any width; places beyond the ninth are dropped.

* `Instant.Fault`: why a text is refused.
* `Instant.ofText`: the instant that a text names, in UTC.
-/

namespace Bringup.Instant

set_option autoImplicit false

open Bringup.Text (isBlank trimLeft)

/-- Why a text names no instant. -/
inductive Fault where
  /-- The text ends too early. -/
  | tooShort
  /-- A character stands where it cannot. -/
  | invalid
  /-- A field lies outside its range. -/
  | outOfRange
  /-- Something follows the instant. -/
  | tooLong
  /-- The instant lies outside the calendar once it is moved to UTC. -/
  | impossible
deriving DecidableEq, Repr

/-- The wording of a fault. -/
def Fault.message : Fault → String
  | tooShort => "premature end of input"
  | invalid => "input contains invalid characters"
  | outOfRange => "input is out of range"
  | tooLong => "trailing input"
  | impossible => "no possible date and time matching input"

/-- A reader takes a value from the front of a text. -/
abbrev Field (α : Type) := List Char → Except Fault (α × List Char)

/-- The value of a list of decimal digits. -/
def valueOf (digits : List Char) : Nat :=
  digits.foldl (fun n c => n * 10 + (c.toNat - '0'.toNat)) 0

/-- At least one digit and at most `most`. -/
def number (most : Nat) : Field Nat := fun cs =>
  let digits := (cs.take most).takeWhile Char.isDigit
  if cs.isEmpty then .error .tooShort
  else if digits.isEmpty then .error .invalid
  else .ok (valueOf digits, cs.drop digits.length)

/-- A number within bounds, after blanks. -/
def bounded (most low high : Nat) : Field Nat := fun cs => do
  let (n, cs) ← number most (trimLeft cs)
  if low ≤ n ∧ n ≤ high then .ok (n, cs) else .error .outOfRange

/-- A year of up to four digits, or a signed one of any width, after blanks. -/
def yearField : Field Int := fun cs => do
  let cs := trimLeft cs
  let (sign, n, cs) ← match cs with
    | '-' :: cs => (number cs.length cs).map fun (n, cs) => ((-1 : Int), n, cs)
    | '+' :: cs => (number cs.length cs).map fun (n, cs) => ((1 : Int), n, cs)
    | cs => (number 4 cs).map fun (n, cs) => ((1 : Int), n, cs)
  let year := sign * n
  if -2147483648 ≤ year ∧ year ≤ 2147483647 then .ok (year, cs) else .error .outOfRange

/-- A separator, after blanks. -/
def separator (c : Char) : Field Unit := fun cs =>
  match trimLeft cs with
  | [] => .error .tooShort
  | d :: cs => if d == c then .ok ((), cs) else .error .invalid

/-- The mark between date and time. -/
def dateEnd : Field Unit
  | [] => .error .tooShort
  | c :: cs => if c == 't' || c == 'T' || c == ' ' then .ok ((), cs) else .error .invalid

/-- The places of a second, as nanoseconds, if there are any. -/
def fraction : Field Nat
  | '.' :: cs => do
    let (n, rest) ← number 9 cs
    let places := cs.length - rest.length
    .ok (n * Nat.pow 10 (9 - places), rest.dropWhile Char.isDigit)
  | cs => .ok (0, cs)

/-- Two digits of an offset. -/
def twoDigits : Field (Char × Char)
  | a :: b :: cs => if a.isDigit && b.isDigit then .ok ((a, b), cs) else .error .invalid
  | [a] => if a.utf8Size < 2 then .error .tooShort else .error .invalid
  | [] => .error .tooShort

/-- A signed offset of hours and minutes, in minutes. -/
def signedOffset : Field Int := fun cs => do
  let (sign, cs) ← match cs with
    | [] => .error .tooShort
    | c :: cs =>
      if c == '+' then .ok ((1 : Int), cs)
      else if c == '-' || c.toNat == 0x2212 then .ok (-1, cs)
      else .error .invalid
  let ((a, b), cs) ← twoDigits cs
  let ((c, d), cs) ← twoDigits (cs.dropWhile fun c => c == ':' || isBlank c)
  if '6' ≤ c then .error .outOfRange
  else .ok (sign * (valueOf [a, b] * 60 + valueOf [c, d]), cs)

/-- An offset from UTC: `UTC` or `Z` in either case, or a signed one. -/
def offset : Field Int := fun cs =>
  if (cs.take 3).map Char.toLower = ['u', 't', 'c'] then .ok (0, cs.drop 3)
  else match cs with
    | 'Z' :: cs => .ok (0, cs)
    | 'z' :: cs => .ok (0, cs)
    | cs => signedOffset cs

/-- The fields of an instant in local time, and the offset of that time in minutes. -/
def localFields : Field (Instant × Int) := fun cs => do
  let (year, cs) ← yearField cs
  let ((), cs) ← separator '-' cs
  let (month, cs) ← bounded 2 1 12 cs
  let ((), cs) ← separator '-' cs
  let (day, cs) ← bounded 2 1 31 cs
  let ((), cs) ← dateEnd cs
  let (hour, cs) ← bounded 2 0 23 cs
  let ((), cs) ← separator ':' cs
  let (minute, cs) ← bounded 2 0 59 cs
  let ((), cs) ← separator ':' cs
  let (second, cs) ← bounded 2 0 60 cs
  let (nano, cs) ← fraction cs
  let (minutes, cs) ← offset (trimLeft cs)
  .ok (({ year, month, day, hour, minute, second, nano }, minutes), cs)

/-- The instant that a text names, moved to UTC. -/
def ofText (s : String) : Except Fault Instant := do
  let ((t, minutes), rest) ← localFields s.toList
  if !(trimLeft rest).isEmpty then .error .tooLong
  else if ¬ t.Valid then .error .outOfRange
  else if 1440 ≤ minutes.natAbs then .error .outOfRange
  else match t.shiftMinutes? (-minutes) with
    | none => .error .impossible
    | some t => .ok t

end Bringup.Instant
