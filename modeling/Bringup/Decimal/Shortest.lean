import Bringup.Decimal.Binary

/-!
The fewest decimal digits that read back as a given double, and two ways to write them.

A double stands for every number nearer to it than to its neighbours, the ends of that interval included
when its mantissa is even. Grids of one to seventeen digits are tried in turn. On each the two points
next to the value are tested, and of two that lie in the interval the nearer is taken. When both are
equally near, the text that is written decides: `Tie`.

* `Decimal.shortest`: the digits, and the power of ten of the last one.
* `Decimal.Double.positional`: the text without an exponent.
* `Decimal.Double.compact`: the text with an exponent for very large and very small numbers.
-/

namespace Bringup.Decimal

set_option autoImplicit false

/-- The numbers that a double stands for, over one denominator. -/
structure Interval where
  low : Nat
  value : Nat
  high : Nat
  denominator : Nat
  /-- The ends belong to the interval. -/
  closed : Bool
deriving Repr

/-- The interval of a double that is not zero. Below a power of two the neighbour is nearer. -/
def Binary.interval (b : Binary) : Interval :=
  let narrow := 2 * b.mantissa = mantissaLimit ∧ leastExponent < b.exponent
  let (factor, denominator) :=
    if 0 ≤ b.exponent then (Nat.pow 2 b.exponent.toNat, 4) else (1, 4 * Nat.pow 2 (-b.exponent).toNat)
  { low := (4 * b.mantissa - if narrow then 1 else 2) * factor
    value := 4 * b.mantissa * factor
    high := (4 * b.mantissa + 2) * factor
    denominator
    closed := b.mantissa % 2 == 0 }

/-- The multiple `c · 10 ^ exponent` lies in the interval. -/
def Interval.holds (i : Interval) (c : Nat) (exponent : Int) : Bool :=
  let (num, den) := scaled 10 c 1 (-exponent)
  let point := num * i.denominator
  if i.closed then i.low * den ≤ point && point ≤ i.high * den
  else i.low * den < point && point < i.high * den

/-- Which of two points of a grid is taken when the value stands in the middle between them. -/
inductive Tie where
  | up
  | toEven
deriving Repr, DecidableEq

/-- The upper neighbour of a point is taken in a tie. -/
def Tie.leaves (tie : Tie) (below : Nat) : Bool :=
  match tie with
  | up => true
  | toEven => below % 2 == 1

/-- The nearer of the two points of a grid next to the value, among those in the interval. -/
def Interval.onGrid? (i : Interval) (tie : Tie) (exponent : Int) : Option Nat :=
  let (num, den) := scaled 10 i.value i.denominator exponent
  let below := num / den
  match i.holds below exponent, i.holds (below + 1) exponent with
  | true, true =>
    let twice := 2 * (num % den)
    some (if den < twice || (den == twice && tie.leaves below) then below + 1 else below)
  | true, false => some below
  | false, true => some (below + 1)
  | false, false => none

/-- The least `k` with the positive fraction below `10 ^ k`. -/
def magnitude (num den : Nat) : Int :=
  if den ≤ num then (Nat.toDigits 10 (num / den)).length
  else 1 - ((Nat.toDigits 10 ((den - 1) / num)).length : Int)

/-- A number without its trailing zeros, and the power of ten that makes up for them. -/
def stripZeros : Nat → Nat → Int → Nat × Int
  | 0, n, exponent => (n, exponent)
  | fuel + 1, n, exponent =>
    if n % 10 = 0 ∧ n ≠ 0 then stripZeros fuel (n / 10) (exponent + 1) else (n, exponent)

/-- The fewest digits that read back as the double, and the power of ten of the last one. -/
def shortest (tie : Tie) (b : Binary) : Nat × Int :=
  if b.mantissa = 0 then (0, 0)
  else
    let interval := b.interval
    let size := magnitude interval.value interval.denominator
    let found := (List.range 17).findSome? fun n =>
      let exponent := size - (n + 1 : Nat)
      (interval.onGrid? tie exponent).map fun c => (c, exponent)
    let (c, exponent) := found.getD (0, 0)
    stripZeros 17 c exponent

/-! ## Text -/

/-- A row of zeros. -/
def zeros (n : Nat) : List Char := List.replicate n '0'

/-- The digits with their point, and at least one digit on either side of it. -/
def pointed (digits : List Char) (exponent : Int) : List Char :=
  if 0 ≤ exponent then digits ++ zeros exponent.toNat ++ ['.', '0']
  else
    let places := (-exponent).toNat
    if places < digits.length then
      digits.take (digits.length - places) ++ '.' :: digits.drop (digits.length - places)
    else '0' :: '.' :: (zeros (places - digits.length) ++ digits)

/-- One digit before the point, and an exponent with its sign. -/
def scientific (digits : List Char) (exponent : Int) : List Char :=
  let point := match digits with
    | d :: e :: rest => d :: '.' :: e :: rest
    | short => short
  let power := exponent + digits.length - 1
  point ++ 'e' :: (if power < 0 then '-' else '+') :: Nat.toDigits 10 power.natAbs

/-- A text with a sign in front of a negative number. -/
def signed (negative : Bool) (text : List Char) : String :=
  String.ofList (if negative then '-' :: text else text)

/-- The text of a double without an exponent. A tie goes up. -/
def Double.positional : Double → String
  | finite negative b =>
    let (n, exponent) := shortest .up b
    signed negative (pointed (Nat.toDigits 10 n) exponent)
  | infinite negative => signed negative ['i', 'n', 'f']
  | notANumber => "NaN"

/-- The text of a double, with an exponent when more than sixteen digits would stand before the point
or more than four zeros after it. A tie goes to the even digit. -/
def Double.compact : Double → String
  | finite negative b =>
    let (n, exponent) := shortest .toEven b
    let digits := Nat.toDigits 10 n
    let before := digits.length + exponent
    signed negative
      (if -5 < before ∧ before ≤ 16 then pointed digits exponent else scientific digits exponent)
  | infinite negative => signed negative ['i', 'n', 'f']
  | notANumber => "NaN"

end Bringup.Decimal
