import Bringup.Text.Utf8

/-!
Text without the sequences that steer a terminal.

A terminal reads bytes in one of several modes. In its ground mode it shows what it reads; an escape byte
takes it into another mode, where bytes belong to a command until the command ends. What is kept is what
would be seen: the bytes that are shown, and the blanks that are obeyed.

* `Mode.next?`: where a byte takes a terminal.
* `plain`: a text without commands. A byte inside a character is always kept.
* `plainBytes`: bytes without commands. A blank inside a command is kept, and the command may go on
  behind the text that follows it.
-/

namespace Bringup.Text.Terminal

set_option autoImplicit false

/-- What a terminal is reading. -/
inductive Mode where
  /-- Text to be shown. -/
  | ground
  /-- What follows an escape byte. -/
  | escape
  /-- A longer escape, up to its last letter. -/
  | escapeTail
  /-- A control sequence, up to its last letter. -/
  | control
  /-- The start of a string for a device. -/
  | device
  /-- The numbers in front of a string for a device. -/
  | deviceNumbers
  /-- The marks in front of a string for a device. -/
  | deviceMarks
  /-- A string that is not shown. -/
  | string
  /-- A string for the window, such as its title. -/
  | title
deriving DecidableEq, Repr

/-- The byte lies between two others. -/
def within (low high b : UInt8) : Bool := low ≤ b && b ≤ high

/-- The mode that a byte leads to, unless the terminal stays as it is. -/
def Mode.next? (m : Mode) (b : UInt8) : Option Mode :=
  if b == 0x18 || b == 0x1A then some ground
  else if b == 0x1B then some escape
  else match m with
    | ground => none
    | escape =>
      if within 0x20 0x2F b then some escapeTail
      else if b == 0x5B then some control
      else if b == 0x5D then some title
      else if b == 0x50 then some device
      else if b == 0x58 || b == 0x5E || b == 0x5F then some string
      else if within 0x30 0x7E b then some ground
      else none
    | escapeTail => if within 0x30 0x7E b then some ground else none
    | control => if within 0x40 0x7E b then some ground else none
    | device =>
      if within 0x20 0x2F b then some deviceMarks
      else if b == 0x3A then some string
      else if within 0x30 0x3F b then some deviceNumbers
      else if within 0x40 0x7E b then some string
      else none
    | deviceNumbers =>
      if within 0x20 0x2F b then some deviceMarks
      else if b == 0x3A || within 0x3C 0x7E b then some string
      else none
    | deviceMarks => if within 0x30 0x7E b then some string else none
    | string => if b == 0x9C then some ground else none
    | title => if b == 0x07 then some ground else none

/-- The mode after a byte. -/
def Mode.next (m : Mode) (b : UInt8) : Mode := (m.next? b).getD m

/-- The mode obeys control bytes; in a string they are part of it. -/
def Mode.obeys : Mode → Bool
  | ground | escape | escapeTail | control => true
  | _ => false

/-- A blank that is obeyed by moving on. -/
def isBlankByte (b : UInt8) : Bool := b == 0x09 || b == 0x0A || b == 0x0C || b == 0x0D

/-- The number of bytes that follow the first one of a character of several bytes. -/
def following? (b : UInt8) : Option Nat :=
  if within 0xC2 0xDF b then some 1
  else if within 0xE0 0xEF b then some 2
  else if within 0xF0 0xF4 b then some 3
  else none

/-- A byte inside a character of several bytes. -/
def isContinuation (b : UInt8) : Bool := within 0x80 0xBF b

/-- A byte of its own that is seen in a mode. -/
def Mode.sees (m : Mode) (b : UInt8) : Bool :=
  (m == ground && within 0x20 0x7E b) || (m.obeys && isBlankByte b)

/-- The bytes of a text that are seen, in a mode. What is seen ends the command before it. -/
def seen : Mode → Bytes → Bytes
  | _, [] => []
  | m, b :: bs =>
    if m.sees b || (m == .ground && (following? b).isSome) || isContinuation b then
      b :: seen .ground bs
    else seen (m.next b) bs

/-- A text without commands to a terminal. -/
def plain (s : String) : String := Utf8.decodeLossy (seen .ground (Utf8.encode s))

/-- What a terminal is reading in the middle of bytes. -/
structure Reading where
  mode : Mode := .ground
  /-- The byte before was seen: bytes are taken as text, whatever the mode. -/
  running : Bool := false
  /-- How many bytes of a character are still to come. -/
  inside : Nat := 0
deriving DecidableEq, Repr

/-- What is read next, and whether a byte is seen. -/
def Reading.step (r : Reading) (b : UInt8) : Reading × Bool :=
  let taken := if r.running then .ground else r.mode
  if 0 < r.inside then ({ r with inside := r.inside - 1 }, true)
  else match (following? b).filter fun _ => taken == .ground with
    | some n => ({ mode := .ground, running := true, inside := n }, true)
    | none =>
      if taken.sees b then ({ r with running := true }, true)
      else ({ mode := r.mode.next b }, false)

/-- The bytes that are seen, from the middle of others. -/
def seenFrom : Reading → Bytes → Bytes
  | _, [] => []
  | r, b :: bs =>
    let (r, isSeen) := r.step b
    if isSeen then b :: seenFrom r bs else seenFrom r bs

/-- Bytes without commands to a terminal. -/
def plainBytes (bs : Bytes) : Bytes := seenFrom {} bs

end Bringup.Text.Terminal
