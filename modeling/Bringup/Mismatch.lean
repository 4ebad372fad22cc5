/-!
Data that does not have the shape that was asked for.

* `Found`: what stood in the place, in a few words.
* `Mismatch`: why it does not fit.
-/

namespace Bringup

set_option autoImplicit false

/-- What stood where something else was expected. -/
inductive Found where
  | null
  | boolean (value : Bool)
  | integer (value : Int)
  /-- A number with a fraction, in its own text. -/
  | float (text : String)
  /-- A string, in quotes and with its escapes. -/
  | string (quoted : String)
  | sequence
  | map
  | unitVariant
deriving DecidableEq, Repr

/-- The wording of what was found. -/
def Found.describe : Found → String
  | null => "null"
  | boolean true => "boolean `true`"
  | boolean false => "boolean `false`"
  | integer value => s!"integer `{value}`"
  | float text => s!"floating point `{text}`"
  | string quoted => s!"string {quoted}"
  | sequence => "sequence"
  | map => "map"
  | unitVariant => "unit variant"

/-- Why data does not fit. -/
inductive Mismatch where
  | wrongType (found : Found) (expected : String)
  | unknownVariant (name : String) (known : List String)
  | missingField (name : String)
  | duplicateField (name : String)
  | wrongLength (length : Nat) (expected : String)
  /-- Any other reason, in its own words. -/
  | other (reason : String)
deriving DecidableEq, Repr

namespace Mismatch

/-- Names between back quotes, as alternatives. -/
def alternatives : List String → String
  | [] => "there are no variants"
  | [a] => s!"expected `{a}`"
  | [a, b] => s!"expected `{a}` or `{b}`"
  | names => "expected one of " ++ ", ".intercalate (names.map fun n => s!"`{n}`")

/-- The wording of a mismatch. -/
def message : Mismatch → String
  | wrongType found expected => s!"invalid type: {found.describe}, expected {expected}"
  | unknownVariant name known => s!"unknown variant `{name}`, {alternatives known}"
  | missingField name => s!"missing field `{name}`"
  | duplicateField name => s!"duplicate field `{name}`"
  | wrongLength length expected => s!"invalid length {length}, expected {expected}"
  | other reason => reason

end Mismatch

end Bringup
