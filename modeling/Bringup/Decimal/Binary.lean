/-!
Binary floating point numbers of double precision, as exact integers.

A finite magnitude is `mantissa · 2 ^ exponent` with a mantissa below `2 ^ 53`.

* `Decimal.roundDiv`: a quotient rounded to the nearest integer, a half to the even one.
* `Decimal.nearest?`: the double nearest to a fraction, none when it is too large.
* `Decimal.ofDecimal?`: the double nearest to digits times a power of ten.
-/

namespace Bringup.Decimal

set_option autoImplicit false

/-- A finite magnitude. -/
structure Binary where
  mantissa : Nat
  exponent : Int
deriving DecidableEq, Repr, Inhabited

/-- A double: finite with its sign, infinite or not a number. -/
inductive Double where
  | finite (negative : Bool) (magnitude : Binary)
  | infinite (negative : Bool)
  | notANumber
deriving DecidableEq, Repr, Inhabited

/-- One more than the largest mantissa, `2 ^ 53`. -/
def mantissaLimit : Nat := 9007199254740992

/-- The smallest exponent of a double. -/
def leastExponent : Int := -1074

/-- The largest exponent of a double. -/
def greatestExponent : Int := 971

/-- The magnitude zero. -/
def Binary.zero : Binary := ⟨0, leastExponent⟩

/-- A quotient rounded to the nearest integer, a half to the even one. -/
def roundDiv (num den : Nat) : Nat :=
  let q := num / den
  let r := num % den
  if den < 2 * r ∨ (2 * r = den ∧ q % 2 = 1) then q + 1 else q

/-- A fraction divided by a power of a base. -/
def scaled (base : Nat) (num den : Nat) (exponent : Int) : Nat × Nat :=
  if 0 ≤ exponent then (num, den * Nat.pow base exponent.toNat)
  else (num * Nat.pow base (-exponent).toNat, den)

/-- The double nearest to `num / den`, a half to the even mantissa; none when it overflows. -/
def nearest? (num den : Nat) : Option Binary :=
  if num = 0 then some .zero
  else
    let least := max ((Nat.log2 num : Int) - Nat.log2 den - 53) leastExponent
    let (n, d) := scaled 2 num den least
    let exponent := if mantissaLimit ≤ n / d then least + 1 else least
    let (n, d) := scaled 2 num den exponent
    let mantissa := roundDiv n d
    let result : Binary :=
      if mantissa = mantissaLimit then ⟨mantissaLimit / 2, exponent + 1⟩ else ⟨mantissa, exponent⟩
    if greatestExponent < result.exponent then none else some result

/-- The value of a magnitude as a fraction. -/
def Binary.fraction (b : Binary) : Nat × Nat :=
  if 0 ≤ b.exponent then (b.mantissa * Nat.pow 2 b.exponent.toNat, 1)
  else (b.mantissa, Nat.pow 2 (-b.exponent).toNat)

/-- The rounded product, none when it overflows. -/
def Binary.mul? (a b : Binary) : Option Binary :=
  nearest? (a.fraction.1 * b.fraction.1) (a.fraction.2 * b.fraction.2)

/-- The rounded quotient, none when it overflows. -/
def Binary.div? (a b : Binary) : Option Binary :=
  nearest? (a.fraction.1 * b.fraction.2) (a.fraction.2 * b.fraction.1)

/-- The double nearest to `digits · 10 ^ exponent`; none when it overflows. A number far outside the
range of doubles is not computed. -/
def ofDecimal? (digits : Nat) (exponent : Int) : Option Binary :=
  if digits = 0 then some .zero
  else if 400 < exponent then none
  else if exponent + (Nat.log2 digits / 3 + 1 : Nat) < -400 then some .zero
  else
    let (num, den) := scaled 10 digits 1 (-exponent)
    nearest? num den

end Bringup.Decimal
