import Bringup.Mismatch
import Bringup.Text.Utf8

/-!
Reading JSON text from the left, with the place of the first fault.

A fault is placed by the number of bytes that were left to read. The place in the text, a line and a
column counted in bytes, follows from that number once the reading has stopped.

* `Json.Cause`: what can be wrong with a text.
* `Json.Read`: a reader over the bytes that are left.
* `Json.readAll`: a reader applied to a whole text.
-/

namespace Bringup.Json

set_option autoImplicit false

open Bringup.Text

/-- What is wrong with a text, or with what is to be written. -/
inductive Cause where
  | eofInList
  | eofInObject
  | eofInString
  | eofInValue
  | expectedColon
  | expectedListCommaOrEnd
  | expectedObjectCommaOrEnd
  | expectedIdent
  | expectedValue
  | invalidEscape
  | invalidNumber
  | numberOutOfRange
  | controlCharacter
  | keyMustBeString
  | loneSurrogate
  | trailingComma
  | trailingCharacters
  | endOfHexEscape
  | tooDeep
  /-- A path that is not Unicode was to be written. -/
  | pathNotUnicode
  /-- The text is JSON so far, but not of the shape that was asked for. -/
  | mismatch (reason : Mismatch)
deriving DecidableEq, Repr

/-- The wording of a cause. -/
def Cause.message : Cause → String
  | eofInList => "EOF while parsing a list"
  | eofInObject => "EOF while parsing an object"
  | eofInString => "EOF while parsing a string"
  | eofInValue => "EOF while parsing a value"
  | expectedColon => "expected `:`"
  | expectedListCommaOrEnd => "expected `,` or `]`"
  | expectedObjectCommaOrEnd => "expected `,` or `\x7d`"
  | expectedIdent => "expected ident"
  | expectedValue => "expected value"
  | invalidEscape => "invalid escape"
  | invalidNumber => "invalid number"
  | numberOutOfRange => "number out of range"
  | controlCharacter => "control character (\\u0000-\\u001F) found while parsing a string"
  | keyMustBeString => "key must be a string"
  | loneSurrogate => "lone leading surrogate in hex escape"
  | trailingComma => "trailing comma"
  | trailingCharacters => "trailing characters"
  | endOfHexEscape => "unexpected end of hex escape"
  | tooDeep => "recursion limit exceeded"
  | pathNotUnicode => "path contains invalid UTF-8 characters"
  | mismatch reason => reason.message

/-- A fault while reading, with the number of bytes that were left, unless no place is known yet. -/
structure Fault where
  cause : Cause
  left : Option Nat
deriving DecidableEq, Repr

/-- A fault in a text, with its line and column. -/
structure Error where
  cause : Cause
  place : Option (Nat × Nat)
deriving DecidableEq, Repr

/-- The wording of an error. -/
def Error.message (e : Error) : String :=
  match e.place with
  | none => e.cause.message
  | some (line, column) => s!"{e.cause.message} at line {line} column {column}"

/-- What is left to read, and how many levels of nesting may still be opened. -/
structure Input where
  rest : Bytes
  depth : Nat
deriving DecidableEq, Repr

/-- A reader of JSON text. -/
abbrev Read := ExceptT Fault (StateM Input)

variable {α : Type}

/-! ## Faults -/

/-- A fault at the byte that was read last. -/
def failHere (cause : Cause) : Read α := do throw ⟨cause, some (← get).rest.length⟩

/-- A fault at the byte that comes next. -/
def failAhead (cause : Cause) : Read α := do throw ⟨cause, some ((← get).rest.length - 1)⟩

/-- A mismatch whose place the enclosing value will say. -/
def failUnplaced (reason : Mismatch) : Read α := throw ⟨.mismatch reason, none⟩

/-- A reader whose fault, if it has no place, gets the place that was reached. -/
def placed (reader : Read α) : Read α :=
  tryCatch reader fun fault => do
    match fault.left with
    | some _ => throw fault
    | none => throw ⟨fault.cause, some (← get).rest.length⟩

/-- Two readers in sequence, the second also after a fault of the first, whose fault comes first. -/
def closedBy (body : Read α) (close : Read Unit) : Read α :=
  ExceptT.mk do
    let result ← body.run
    let closed ← close.run
    return match result, closed with
      | .ok a, .ok () => .ok a
      | .error fault, _ => .error fault
      | .ok _, .error fault => .error fault

/-! ## Bytes -/

/-- The next byte, which stays where it is. -/
def peek : Read (Option UInt8) := do return (← get).rest.head?

/-- The next byte is passed. -/
def skip : Read Unit := modify fun s => { s with rest := s.rest.tail }

/-- The next byte, which is passed. -/
def next : Read (Option UInt8) := do
  let b ← peek
  skip
  return b

/-- The byte of an ASCII character. -/
def byte (c : Char) : UInt8 := c.toNat.toUInt8

/-- A blank of JSON. -/
def isBlank (b : UInt8) : Bool := b == 0x20 || b == 0x0A || b == 0x09 || b == 0x0D

/-- A decimal digit. -/
def isDigit (b : UInt8) : Bool := byte '0' ≤ b && b ≤ byte '9'

/-- The value of a decimal digit. -/
def digit (b : UInt8) : Nat := b.toNat - (byte '0').toNat

/-- Every byte of a class that comes next. -/
def takeWhile (cls : UInt8 → Bool) : Read Bytes := do
  let s ← get
  set { s with rest := s.rest.dropWhile cls }
  return s.rest.takeWhile cls

/-- Blanks are passed; the next byte stays where it is. -/
def skipBlanks : Read (Option UInt8) := do
  let _ ← takeWhile isBlank
  peek

/-- The bytes of a word, each of which must come next. -/
def word : List Char → Read Unit
  | [] => pure ()
  | c :: cs => do
    match ← next with
    | none => failHere .eofInValue
    | some b => if b == byte c then word cs else failHere .expectedIdent

/-- One more level of nesting. -/
def nested (body : Read α) : Read α := do
  modify fun s => { s with depth := s.depth - 1 }
  if (← get).depth = 0 then failAhead .tooDeep
  let a ← body
  modify fun s => { s with depth := s.depth + 1 }
  return a

/-! ## Whole texts -/

/-- The levels of nesting that a text may have, and one. -/
def nestingLimit : Nat := 128

/-- The line and the column, in bytes, that the first bytes of a text lead to. -/
def placeAfter (read : Bytes) : Nat × Nat :=
  read.foldl
    (fun (place : Nat × Nat) b => if b == 0x0A then (place.1 + 1, 0) else (place.1, place.2 + 1)) (1, 0)

/-- A fault with its place in a text. -/
def Fault.inText (text : Bytes) (fault : Fault) : Error :=
  ⟨fault.cause, fault.left.map fun left => placeAfter (text.take (text.length - left))⟩

/-- A reader, and then nothing but blanks. -/
def readAll (reader : Read α) (text : Bytes) : Except Error α :=
  let whole : Read α := do
    let a ← reader
    match ← skipBlanks with
    | none => return a
    | some _ => failAhead .trailingCharacters
  ((whole.run.run ⟨text, nestingLimit⟩).1).mapError (Fault.inText text)

end Bringup.Json
