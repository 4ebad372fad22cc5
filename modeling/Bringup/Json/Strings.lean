import Bringup.Json.Read

/-!
The inside of a JSON string, byte by byte.

A string that is wanted is read strictly: control characters and surrogates without their other half
are faults. A string that is only passed over needs no more than its escapes to be well formed.
-/

namespace Bringup.Json

set_option autoImplicit false

open Bringup.Text

/-- What the bytes read so far call for. -/
inductive StringMode where
  | body
  /-- A backslash was read. -/
  | escape
  /-- Some hexadecimal digits are still to come. The value is missing after a byte that is no digit.
  The lead is the first half of a surrogate pair. -/
  | hex (left : Nat) (value : Option Nat) (lead : Option Nat)
  /-- The backslash of the second half of a surrogate pair has to come. -/
  | pairSlash (lead : Nat)
  /-- The letter of the second half of a surrogate pair has to come. -/
  | pairLetter (lead : Nat)
deriving DecidableEq, Repr

/-- What one byte leads to. -/
inductive StringStep where
  | more (mode : StringMode) (contents : Bytes)
  | done
  /-- A fault, after the byte or in front of it. -/
  | fault (cause : Cause) (passed : Bool)

/-- The byte that a one-letter escape stands for. -/
def simpleEscape? (b : UInt8) : Option UInt8 :=
  if b == byte '"' then some (byte '"')
  else if b == byte '\\' then some (byte '\\')
  else if b == byte '/' then some (byte '/')
  else if b == byte 'b' then some 0x08
  else if b == byte 'f' then some 0x0C
  else if b == byte 'n' then some 0x0A
  else if b == byte 'r' then some 0x0D
  else if b == byte 't' then some 0x09
  else none

/-- The value of a hexadecimal digit. -/
def hexDigit? (b : UInt8) : Option Nat :=
  if isDigit b then some (digit b)
  else if byte 'a' ≤ b && b ≤ byte 'f' then some (b.toNat - (byte 'a').toNat + 10)
  else if byte 'A' ≤ b && b ≤ byte 'F' then some (b.toNat - (byte 'A').toNat + 10)
  else none

/-- The first half of a surrogate pair. -/
def isLead (n : Nat) : Bool := 0xD800 ≤ n && n ≤ 0xDBFF

/-- The second half of a surrogate pair. -/
def isTrail (n : Nat) : Bool := 0xDC00 ≤ n && n ≤ 0xDFFF

/-- The bytes of a code point, in reverse. -/
def codeBytes (n : Nat) : Bytes := (String.utf8EncodeChar (Char.ofNat n)).reverse

/-- Four hexadecimal digits were read. -/
def afterHex (strict : Bool) (contents : Bytes) : Option Nat → Option Nat → StringStep
  | none, _ => .fault .invalidEscape true
  | some n, none =>
    if !strict then .more .body contents
    else if isTrail n then .fault .loneSurrogate true
    else if isLead n then .more (.pairSlash n) contents
    else .more .body (codeBytes n ++ contents)
  | some n, some lead =>
    if isTrail n then
      .more .body (codeBytes (0x10000 + (lead - 0xD800) * 0x400 + (n - 0xDC00)) ++ contents)
    else .fault .loneSurrogate true

/-- What one byte leads to. The contents so far are in reverse. -/
def stringStep (strict : Bool) (contents : Bytes) (b : UInt8) : StringMode → StringStep
  | .body =>
    if b == byte '"' then .done
    else if b == byte '\\' then .more .escape contents
    else if b < 0x20 then .fault .controlCharacter strict
    else .more .body (b :: contents)
  | .escape =>
    match simpleEscape? b with
    | some c => .more .body (c :: contents)
    | none => if b == byte 'u' then .more (.hex 3 (some 0) none) contents else .fault .invalidEscape true
  | .hex left value lead =>
    let value := value.bind fun n => (hexDigit? b).map fun d => n * 16 + d
    match left with
    | 0 => afterHex strict contents value lead
    | left + 1 => .more (.hex left value lead) contents
  | .pairSlash lead =>
    if b == byte '\\' then .more (.pairLetter lead) contents else .fault .endOfHexEscape true
  | .pairLetter lead =>
    if b == byte 'u' then .more (.hex 3 (some 0) (some lead)) contents
    else .fault .endOfHexEscape true

/-- The contents of a string up to its closing quote, and the bytes that are left. -/
def scanString (strict : Bool) (mode : StringMode) (contents : Bytes) :
    Bytes → Except Cause Bytes × Bytes
  | [] => (.error .eofInString, [])
  | b :: rest =>
    match stringStep strict contents b mode with
    | .more mode contents => scanString strict mode contents rest
    | .done => (.ok contents.reverse, rest)
    | .fault cause passed => (.error cause, if passed then rest else b :: rest)

/-- The contents of a string whose opening quote was read. -/
def stringBytes (strict : Bool) : Read Bytes := do
  let s ← get
  let (result, rest) := scanString strict .body [] s.rest
  set { s with rest }
  match result with
  | .ok contents => return contents
  | .error cause => failHere cause

/-- The text of a string whose opening quote was read. -/
def stringText : Read String := do return Utf8.decodeLossy (← stringBytes true)

end Bringup.Json
