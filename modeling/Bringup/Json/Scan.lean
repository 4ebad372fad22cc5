import Bringup.Json.Number
import Bringup.Json.Strings

/-!
Whole JSON values that are passed over.

* `Json.skipValue`: a value of no interest, nested to any depth.
* `Json.checkValue`: a value that must be well formed in every part.
* `Json.separated`: the items of a list or object between their commas.
-/

namespace Bringup.Json

set_option autoImplicit false

/-- The word whose first letter comes next, if one does. -/
def wordAt (b : UInt8) : Option (List Char) :=
  if b == byte 'n' then some ['u', 'l', 'l']
  else if b == byte 't' then some ['r', 'u', 'e']
  else if b == byte 'f' then some ['a', 'l', 's', 'e']
  else none

/-- The byte starts a number. -/
def startsNumber (b : UInt8) : Bool := b == byte '-' || isDigit b

/-! ## Values of no interest -/

/-- The name of a member and its colon. -/
def skipName : Read Unit := do
  match ← skipBlanks with
  | none => failAhead .eofInObject
  | some b => if b == byte '"' then skip else failAhead .keyMustBeString
  let _ ← stringBytes false
  match ← skipBlanks with
  | none => failAhead .eofInObject
  | some b => if b == byte ':' then skip else failAhead .expectedColon

mutual

/-- A value of no interest. The fuel is more than the number of bytes left. -/
def skipValue : Nat → Read Unit
  | 0 => failAhead .eofInValue
  | fuel + 1 => do
    match ← skipBlanks with
    | none => failAhead .eofInValue
    | some b =>
      match wordAt b with
      | some letters => do skip; word letters
      | none =>
        if startsNumber b then skipNumber
        else if b == byte '"' then do skip; let _ ← stringBytes false
        else if b == byte '[' then do skip; skipRest fuel false true
        else if b == byte '\x7b' then do skip; skipRest fuel true true
        else failAhead .expectedValue

/-- The rest of a list or an object, at its start or after an item. -/
def skipRest : Nat → (object first : Bool) → Read Unit
  | 0, _, _ => failAhead .eofInValue
  | fuel + 1, object, first => do
    match ← skipBlanks with
    | none => failAhead (if object then .eofInObject else .eofInList)
    | some b =>
      if b == byte (if object then '\x7d' else ']') then skip
      else
        if !first then
          if b == byte ',' then skip
          else failAhead (if object then .expectedObjectCommaOrEnd else .expectedListCommaOrEnd)
        if object then skipName
        skipValue fuel
        skipRest fuel object false

end

/-- A value of no interest. -/
def skipAny : Read Unit := do skipValue (2 * (← get).rest.length + 2)

/-! ## Lists and objects that are wanted -/

/-- What comes before the next item: the next byte, or none where the list or object ends. Blanks
are passed, and the comma after an item. -/
def separated (object first : Bool) : Read (Option UInt8) := do
  let close := byte (if object then '\x7d' else ']')
  match ← skipBlanks with
  | none => failAhead (if object then .eofInObject else .eofInList)
  | some b =>
    if b == close then return none
    else if first then return some b
    else if b == byte ',' then
      skip
      match ← skipBlanks with
      | none => failAhead .eofInValue
      | some c => if c == close then failAhead .trailingComma else return some c
    else failAhead (if object then .expectedObjectCommaOrEnd else .expectedListCommaOrEnd)

/-- The colon after a name. -/
def colon : Read Unit := do
  match ← skipBlanks with
  | none => failAhead .eofInObject
  | some b => if b == byte ':' then skip else failAhead .expectedColon

/-- The name of a member whose first byte is given. -/
def nameAt (b : UInt8) : Read String := do
  if b == byte '"' then do skip; stringText else failAhead .keyMustBeString

/-- The end of a list. -/
def endList : Read Unit := do
  match ← skipBlanks with
  | none => failAhead .eofInList
  | some b =>
    if b == byte ']' then skip
    else if b == byte ',' then
      skip
      if (← skipBlanks) == some (byte ']') then failAhead .trailingComma
      else failAhead .trailingCharacters
    else failAhead .trailingCharacters

/-- The end of an object. -/
def endObject : Read Unit := do
  match ← skipBlanks with
  | none => failAhead .eofInObject
  | some b =>
    if b == byte '\x7d' then skip
    else if b == byte ',' then failAhead .trailingComma
    else failAhead .trailingCharacters

mutual

/-- A value that must be well formed in every part. The fuel is more than the number of bytes left. -/
def checkValue : Nat → Read Unit
  | 0 => failAhead .eofInValue
  | fuel + 1 => do
    match ← skipBlanks with
    | none => failAhead .eofInValue
    | some b =>
      match wordAt b with
      | some letters => do skip; word letters
      | none =>
        if startsNumber b then do let _ ← number
        else if b == byte '"' then do skip; let _ ← stringText
        else if b == byte '[' then
          closedBy (nested do skip; checkItems fuel false true) endList
        else if b == byte '\x7b' then
          closedBy (nested do skip; checkItems fuel true true) endObject
        else failAhead .expectedValue

/-- The items of a list or the members of an object. -/
def checkItems : Nat → (object first : Bool) → Read Unit
  | 0, _, _ => failAhead .eofInValue
  | fuel + 1, object, first => do
    match ← separated object first with
    | none => pure ()
    | some b =>
      if object then
        let _ ← nameAt b
        colon
      checkValue fuel
      checkItems fuel object false

end

/-- A value that must be well formed in every part. -/
def checkAny : Read Unit := do checkValue (2 * (← get).rest.length + 2)

end Bringup.Json
