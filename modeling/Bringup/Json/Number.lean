import Bringup.Decimal.Binary
import Bringup.Json.Read

/-!
JSON numbers.

A number without fraction and exponent is an integer when it fits into 64 bits, with the sign if it has
one. Any other number is a double, computed from at most 64 bits of digits by one product or quotient
with a power of ten.
-/

namespace Bringup.Json

set_option autoImplicit false

open Bringup.Text
open Bringup.Decimal (Binary Double nearest?)

/-- A number as it was read. -/
inductive Number where
  | integer (value : Int)
  | double (value : Double)
deriving DecidableEq, Repr

/-- One more than the largest number that the digits may make up. -/
def wordLimit : Nat := 18446744073709551616

/-- The digits as they come, as long as the number stays within 64 bits, and how many were used. -/
def gather (start : Nat) : Bytes → Nat × Nat
  | [] => (start, 0)
  | b :: bs =>
    let value := start * 10 + digit b
    if value < wordLimit then
      let (total, used) := gather value bs
      (total, used + 1)
    else (start, 0)

/-- The largest power of ten that is a double. -/
def largestPower : Nat := 308

/-- The double of a power of ten. -/
def power (k : Nat) : Binary := (nearest? (Nat.pow 10 k) 1).getD .zero

/-- A double divided by a power of ten. A larger power is divided out in parts until nothing is left. -/
def dividedBy : Nat → Binary → Nat → Binary
  | 0, value, _ => value
  | fuel + 1, value, k =>
    if k ≤ largestPower then (value.div? (power k)).getD .zero
    else if value.mantissa = 0 then value
    else dividedBy fuel ((value.div? (power largestPower)).getD .zero) (k - largestPower)

/-- A whole number times a power of ten, none when it overflows. -/
def ofParts? (significand : Nat) (exponent : Int) : Option Binary := do
  let value ← nearest? significand 1
  if 0 ≤ exponent then
    if exponent.toNat ≤ largestPower then value.mul? (power exponent.toNat)
    else if value.mantissa = 0 then some value
    else none
  else return dividedBy 4 value (-exponent).toNat

/-- A double from its parts. -/
def double (negative : Bool) (significand : Nat) (exponent : Int) : Read Number :=
  match ofParts? significand exponent with
  | some value => return .double (.finite negative value)
  | none => failHere .numberOutOfRange

/-- The largest exponent that is computed with. -/
def exponentLimit : Nat := 2147483647

/-- The exponent as far as it stays within its limit. -/
def gatherExponent (start : Nat) : Bytes → Option Nat
  | [] => some start
  | b :: bs =>
    let value := start * 10 + digit b
    if value ≤ exponentLimit then gatherExponent value bs else none

/-- An exponent within the limits on either side. -/
def clampExponent (e : Int) : Int := max (-(exponentLimit : Int) - 1) (min e exponentLimit)

/-- The number of digits of the exponent that are within its limit, and the one beyond it. -/
def exponentUsed (start : Nat) : Bytes → Nat
  | [] => 0
  | b :: bs =>
    let value := start * 10 + digit b
    if value ≤ exponentLimit then exponentUsed value bs + 1 else 1

/-- An exponent, its letter next, after the digits of a number. -/
def exponentPart (negative : Bool) (significand : Nat) (before : Int) : Read Number := do
  skip
  let down ← match ← peek with
    | some b =>
      if b == byte '+' then do skip; pure false
      else if b == byte '-' then do skip; pure true
      else pure false
    | none => pure false
  match ← next with
  | none => failHere .eofInValue
  | some b =>
    if !isDigit b then failHere .invalidNumber
    else
      let s ← get
      let digits := s.rest.takeWhile isDigit
      match gatherExponent (digit b) digits with
      | some e =>
        set { s with rest := s.rest.drop digits.length }
        double negative significand (clampExponent (if down then before - e else before + e))
      | none =>
        if significand ≠ 0 ∧ !down then
          set { s with rest := s.rest.drop (exponentUsed (digit b) digits) }
          failHere .numberOutOfRange
        else
          set { s with rest := s.rest.drop digits.length }
          return .double (.finite negative .zero)

/-- What follows a number's digits: an exponent or nothing. -/
def afterDigits (negative : Bool) (significand : Nat) (exponent : Int) : Read Number := do
  match ← peek with
  | some b =>
    if b == byte 'e' || b == byte 'E' then exponentPart negative significand exponent
    else double negative significand exponent
  | none => double negative significand exponent

/-- A fraction, its point next. -/
def fractionPart (negative : Bool) (significand : Nat) (before : Int) : Read Number := do
  skip
  let digits ← takeWhile isDigit
  if digits.isEmpty then
    match ← peek with
    | some _ => failAhead .invalidNumber
    | none => failAhead .eofInValue
  let (total, used) := gather significand digits
  afterDigits negative total (before - used)

/-- A number, its first digit read. -/
def numberAfter (negative : Bool) (first : UInt8) : Read Number := do
  let digits ← if first == byte '0' then pure [] else takeWhile isDigit
  let following ← peek
  if first == byte '0' && following.any isDigit then failAhead .invalidNumber
  let (total, used) := gather (digit first) digits
  let beyond := digits.length - used
  if following == some (byte '.') then fractionPart negative total beyond
  else if following == some (byte 'e') || following == some (byte 'E') then
    exponentPart negative total beyond
  else if beyond ≠ 0 then double negative total beyond
  else if !negative then return .integer total
  else if 0 < total ∧ total ≤ wordLimit / 2 then return .integer (-total)
  else double true total 0

/-- A number that is wanted. -/
def number : Read Number := do
  match ← next with
  | none => failHere .eofInValue
  | some b =>
    if b == byte '-' then
      match ← next with
      | none => failHere .eofInValue
      | some d => if isDigit d then numberAfter true d else failHere .invalidNumber
    else numberAfter false b

/-- The exponent of a number that is passed over, its letter next. -/
def skipExponent : Read Unit := do
  skip
  match ← peek with
  | some b => if b == byte '+' || b == byte '-' then skip
  | none => pure ()
  match ← next with
  | some b => if isDigit b then do let _ ← takeWhile isDigit else failHere .invalidNumber
  | none => failHere .invalidNumber

/-- What follows the digits of a number that is passed over. -/
def skipFractionAndExponent : Read Unit := do
  if (← peek) == some (byte '.') then
    skip
    let digits ← takeWhile isDigit
    if digits.isEmpty then failAhead .invalidNumber
  match ← peek with
  | some b => if b == byte 'e' || b == byte 'E' then skipExponent
  | none => pure ()

/-- A number that is passed over. -/
def skipNumber : Read Unit := do
  if (← peek) == some (byte '-') then skip
  match ← next with
  | none => failHere .invalidNumber
  | some b =>
    if b == byte '0' then
      if (← peek).any isDigit then failAhead .invalidNumber
    else if isDigit b then do let _ ← takeWhile isDigit
    else failHere .invalidNumber
  skipFractionAndExponent

end Bringup.Json
