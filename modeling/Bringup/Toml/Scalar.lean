import Bringup.Decimal.Binary

/-!
The numbers, dates and times of TOML, each as a whole word.

* `Toml.integer?`: decimal with a sign, or in base sixteen, eight or two without one.
* `Toml.float?`: with a fraction or an exponent, or `inf` or `nan`. One beyond the largest is told apart.
* `Toml.isTime`: a date, a time of day, or both with or without an offset.
-/

namespace Bringup.Toml

set_option autoImplicit false

open Bringup.Decimal (Double)

/-- The value of a hexadecimal digit. -/
def hexDigit? (c : Char) : Option Nat :=
  if c.isDigit then some (c.toNat - '0'.toNat)
  else if 'a' ≤ c && c ≤ 'f' then some (c.toNat - 'a'.toNat + 10)
  else if 'A' ≤ c && c ≤ 'F' then some (c.toNat - 'A'.toNat + 10)
  else none

/-- A hexadecimal digit. -/
def isHexDigit (c : Char) : Bool := (hexDigit? c).isSome

/-- The value of digits in a base. -/
def valueIn (base : Nat) (digits : List Char) : Nat :=
  digits.foldl (fun n c => n * base + (hexDigit? c).getD 0) 0

/-- Digits of a class, with single underscores between them. -/
def grouped (cls : Char → Bool) (cs : List Char) : Option (List Char) :=
  let groups := cs.splitOn '_'
  if groups.all fun g => !g.isEmpty && g.all cls then some groups.flatten else none

/-- A sign that may stand in front: a minus, and what follows. -/
def splitSign : List Char → Bool × List Char
  | '-' :: cs => (true, cs)
  | '+' :: cs => (false, cs)
  | cs => (false, cs)

/-- Decimal digits without a leading zero. -/
def wholeDigits? (cs : List Char) : Option (List Char) := do
  let digits ← grouped Char.isDigit cs
  if 1 < digits.length && digits.head? == some '0' then none else some digits

/-- An integer. -/
def integer? (word : List Char) : Option Int :=
  match word with
  | '0' :: 'x' :: cs => do return valueIn 16 (← grouped isHexDigit cs)
  | '0' :: 'o' :: cs => do return valueIn 8 (← grouped (fun c => '0' ≤ c && c ≤ '7') cs)
  | '0' :: 'b' :: cs => do return valueIn 2 (← grouped (fun c => c == '0' || c == '1') cs)
  | _ => do
    let (negative, cs) := splitSign word
    let n : Int := valueIn 10 (← wholeDigits? cs)
    return if negative then -n else n

/-- An integer fits into 64 bits with a sign. -/
def fitsWord (n : Int) : Bool := -9223372036854775808 ≤ n && n < 9223372036854775808

/-- An integer fits into 128 bits, with a sign or without one. -/
def fitsDoubleWord (n : Int) : Bool :=
  -170141183460469231731687303715884105728 ≤ n && n < 340282366920938463463374607431768211456

/-- A part before a character of a class, and the part from there on. -/
def splitAt (cls : Char → Bool) (cs : List Char) : List Char × List Char :=
  (cs.takeWhile fun c => !cls c, cs.dropWhile fun c => !cls c)

/-- A number with a fraction or an exponent; nothing inside stands for one beyond the largest. -/
def float? (word : List Char) : Option (Option Double) := do
  let (negative, cs) := splitSign word
  if cs == ['i', 'n', 'f'] then return some (.infinite negative)
  if cs == ['n', 'a', 'n'] then return some .notANumber
  let (whole, rest) := splitAt (fun c => c == '.' || c == 'e' || c == 'E') cs
  let whole ← wholeDigits? whole
  if rest.isEmpty then none
  let (places, rest) ← match rest with
    | '.' :: cs => do
      let (places, rest) := splitAt (fun c => c == 'e' || c == 'E') cs
      pure (← grouped Char.isDigit places, rest)
    | _ => pure ([], rest)
  let exponent : Int ← match rest with
    | [] => pure 0
    | _ :: cs => do
      let (down, cs) := splitSign cs
      let n : Int := valueIn 10 (← grouped Char.isDigit cs)
      pure (if down then -n else n)
  let magnitude? := Decimal.ofDecimal? (valueIn 10 (whole ++ places)) (exponent - places.length)
  return magnitude?.map (.finite negative)

/-! ## Dates and times -/

/-- A number of exactly so many digits, and what follows it. -/
def fixedNumber (width : Nat) (cs : List Char) : Option (Nat × List Char) :=
  let digits := cs.take width
  if digits.length = width ∧ digits.all Char.isDigit then some (valueIn 10 digits, cs.drop width)
  else none

/-- What follows a given character. -/
def afterChar (c : Char) : List Char → Option (List Char)
  | d :: cs => if c == d then some cs else none
  | [] => none

/-- The number of days of a month. -/
def monthLength (year month : Nat) : Nat :=
  if month = 2 then if (year % 4 = 0 ∧ year % 100 ≠ 0) ∨ year % 400 = 0 then 29 else 28
  else if month = 4 ∨ month = 6 ∨ month = 9 ∨ month = 11 then 30
  else 31

/-- What follows a date. -/
def afterDate (cs : List Char) : Option (List Char) := do
  let (year, cs) ← fixedNumber 4 cs
  let (month, cs) ← fixedNumber 2 (← afterChar '-' cs)
  let (day, cs) ← fixedNumber 2 (← afterChar '-' cs)
  if 1 ≤ month ∧ month ≤ 12 ∧ 1 ≤ day ∧ day ≤ monthLength year month then some cs else none

/-- What follows a time of day. The seconds may be left out. -/
def afterTime (cs : List Char) : Option (List Char) := do
  let (hour, cs) ← fixedNumber 2 cs
  let (minute, cs) ← fixedNumber 2 (← afterChar ':' cs)
  if 23 < hour ∨ 59 < minute then none
  match cs with
  | ':' :: cs =>
    let (second, cs) ← fixedNumber 2 cs
    if 60 < second then none
    match cs with
    | '.' :: cs => if (cs.takeWhile Char.isDigit).isEmpty then none else some (cs.dropWhile Char.isDigit)
    | _ => some cs
  | _ => some cs

/-- The text is an offset from universal time. -/
def isOffset (cs : List Char) : Bool :=
  match cs with
  | [c] => c == 'Z' || c == 'z'
  | sign :: cs => (sign == '+' || sign == '-') && (do
      let (hour, cs) ← fixedNumber 2 cs
      let (minute, cs) ← fixedNumber 2 (← afterChar ':' cs)
      return hour ≤ 23 && minute ≤ 59 && cs.isEmpty : Option Bool).getD false
  | [] => false

/-- The text is a date, a time of day, or both with or without an offset. -/
def isTime (word : List Char) : Bool :=
  match afterDate word with
  | some [] => true
  | some (mark :: cs) =>
    (mark == 'T' || mark == 't' || mark == ' ')
      && (afterTime cs).any fun rest => rest.isEmpty || isOffset rest
  | none => (afterTime word).any List.isEmpty

end Bringup.Toml
