import Bringup.Json.Scan
import Bringup.Decimal.Shortest
import Bringup.Text.Quoted

/-!
JSON values of a shape that is asked for: strings, lists, records and variants.

A value of another shape is a mismatch. It is placed after what was read of the value: all of a scalar,
nothing of a list or an object.
-/

namespace Bringup.Json

set_option autoImplicit false

variable {α : Type}

/-- The first byte of a value. -/
def firstByte : Read UInt8 := do
  match ← skipBlanks with
  | none => failAhead .eofInValue
  | some b => return b

/-- What a value is that starts with a byte. -/
def found (b : UInt8) : Read Found :=
  if b == byte 'n' then do skip; word ['u', 'l', 'l']; return .null
  else if b == byte 't' then do skip; word ['r', 'u', 'e']; return .boolean true
  else if b == byte 'f' then do skip; word ['a', 'l', 's', 'e']; return .boolean false
  else if startsNumber b then do
    match ← number with
    | .integer value => return .integer value
    | .double value => return .float value.compact
  else if b == byte '"' then do skip; return .string (Text.quoted (← stringText))
  else if b == byte '[' then return .sequence
  else if b == byte '\x7b' then return .map
  else failAhead .expectedValue

/-- A value of the wrong shape that starts with a byte. -/
def wrongType (expected : String) (b : UInt8) : Read α :=
  placed do failUnplaced (.wrongType (← found b) expected)

/-- The text of a string, as something else. -/
def stringAs (expected : String) (convert : String → Except Mismatch α) : Read α := do
  let b ← firstByte
  if b == byte '"' then placed do
    skip
    match convert (← stringText) with
    | .ok a => return a
    | .error reason => failUnplaced reason
  else wrongType expected b

/-- A string. -/
def string : Read String := stringAs "a string" .ok

/-- The word `null`. -/
def unit : Read Unit := do
  let b ← firstByte
  if b == byte 'n' then do skip; word ['u', 'l', 'l'] else wrongType "unit" b

/-! ## Lists -/

/-- The items of a list. The fuel is more than the number of bytes left. -/
def items (item : Read α) : Nat → (first : Bool) → Read (List α)
  | 0, _ => failAhead .eofInList
  | fuel + 1, first => do
    match ← separated false first with
    | none => return []
    | some _ =>
      let a ← item
      return a :: (← items item fuel false)

/-- A list. -/
def list (item : Read α) : Read (List α) := do
  let b ← firstByte
  if b == byte '[' then
    placed (closedBy (nested do skip; items item ((← get).rest.length + 1) true) endList)
  else wrongType "a sequence" b

/-! ## Records -/

/-- The members of an object, each taken in by a step. -/
def members (step : α → String → Read α) : Nat → (first : Bool) → α → Read α
  | 0, _, _ => failAhead .eofInObject
  | fuel + 1, first, a => do
    match ← separated true first with
    | none => return a
    | some b =>
      let name ← nameAt b
      let a ← step a name
      members step fuel false a

/-- The next item of a list, if there is one. -/
def item? (item : Read α) (first : Bool) : Read (Option α) := do
  match ← separated false first with
  | none => return none
  | some _ => return some (← item)

/-- A record, as an object or as the list of its fields. -/
def record (expected : String) (ofObject ofList : Read α) : Read α := do
  let b ← firstByte
  if b == byte '[' then placed (closedBy (nested do skip; ofList) endList)
  else if b == byte '\x7b' then placed (closedBy (nested do skip; ofObject) endObject)
  else wrongType expected b

/-- A field that may be given once. -/
def field (name : String) (value : Read α) : Option α → Read (Option α)
  | some _ => failUnplaced (.duplicateField name)
  | none => do
    colon
    return some (← value)

/-- A field that has to be given. -/
def required (name : String) : Option α → Read α
  | some a => return a
  | none => failUnplaced (.missingField name)

/-! ## Variants -/

/-- The name of a variant. -/
def variantName (names : List String) : Read String :=
  stringAs "variant identifier" fun name =>
    if names.contains name then .ok name else .error (.unknownVariant name names)

/-- The name of a variant at the start of an object. -/
def carriedName (names : List String) : Read String := do
  match ← skipBlanks with
  | none => failAhead .eofInObject
  | some b =>
    if b == byte '"' then variantName names
    else if b == byte '\x7d' then failAhead .expectedValue
    else failAhead .keyMustBeString

/-- A variant: its name alone, or an object with its name and what it carries. -/
def variant (names : List String) (alone carrying : String → Read α) : Read α := do
  let b ← firstByte
  if b == byte '\x7b' then
    let a ← nested do
      skip
      let name ← carriedName names
      colon
      carrying name
    match ← skipBlanks with
    | none => failHere .eofInObject
    | some c => if c == byte '\x7d' then do skip; return a else failHere .expectedValue
  else if b == byte '"' then alone (← variantName names)
  else failAhead .expectedValue

end Bringup.Json
