/-!
Text as bytes in UTF-8.

A byte string is read from the left. Each step takes the bytes of one character or, where no character
can be read, the longest beginning of one that stands there, at least a single byte.

* `encode`: the bytes of a text.
* `scan`: the characters that bytes spell, with a gap for each unreadable part.
* `decode?`: the text, when there is no gap.
* `decodeLossy`: the text with U+FFFD in each gap.
-/

namespace Bringup.Text

set_option autoImplicit false

/-- Raw data. -/
abbrev Bytes := List UInt8

namespace Utf8

/-- The bytes of a text. -/
def encode (s : String) : Bytes := s.toList.flatMap String.utf8EncodeChar

/-- The low six bits of a continuation byte. -/
def bits (b : UInt8) : Nat := (b &&& 0x3F).toNat

/-- The bits that a lead byte gives, and the ranges of the bytes that must follow it. The range of the
second byte rules out overlong forms, surrogates and values beyond the last code point. -/
def shape? (lead : UInt8) : Option (Nat × List (UInt8 × UInt8)) :=
  if lead < 0x80 then some (lead.toNat, [])
  else if lead < 0xC2 then none
  else if lead < 0xE0 then some ((lead &&& 0x1F).toNat, [(0x80, 0xBF)])
  else if lead < 0xF0 then
    some ((lead &&& 0x0F).toNat,
      [if lead == 0xE0 then (0xA0, 0xBF) else if lead == 0xED then (0x80, 0x9F) else (0x80, 0xBF),
        (0x80, 0xBF)])
  else if lead < 0xF5 then
    some ((lead &&& 0x07).toNat,
      [if lead == 0xF0 then (0x90, 0xBF) else if lead == 0xF4 then (0x80, 0x8F) else (0x80, 0xBF),
        (0x80, 0xBF), (0x80, 0xBF)])
  else none

/-- The value that follows from bytes in the given ranges, or a gap at the first that is not, and the
bytes that are left. -/
def follow : List (UInt8 × UInt8) → Nat → Bytes → Option Nat × Bytes
  | [], value, bs => (some value, bs)
  | _ :: _, _, [] => (none, [])
  | (low, high) :: ranges, value, b :: bs =>
    if low ≤ b && b ≤ high then follow ranges (value * 0x40 + bits b) bs else (none, b :: bs)

/-- The character that starts with a lead byte, or a gap, and the bytes that are left. -/
def step (lead : UInt8) (bs : Bytes) : Option Char × Bytes :=
  match shape? lead with
  | none => (none, bs)
  | some (value, ranges) =>
    let (code, rest) := follow ranges value bs
    (code.map Char.ofNat, rest)

theorem length_follow (ranges : List (UInt8 × UInt8)) (value : Nat) (bs : Bytes) :
    (follow ranges value bs).2.length ≤ bs.length := by
  induction ranges generalizing value bs with
  | nil => simp [follow]
  | cons r ranges ih =>
    cases bs with
    | nil => simp [follow]
    | cons b bs =>
      simp only [follow]
      split
      · exact Nat.le_trans (ih _ bs) (by simp)
      · simp

/-- A step never gives back more than it was given. -/
theorem length_step (lead : UInt8) (bs : Bytes) : (step lead bs).2.length ≤ bs.length := by
  unfold step
  split
  · exact Nat.le_refl _
  · exact length_follow _ _ _

/-- The characters that the bytes spell, with a gap for each unreadable part. -/
def scan : Bytes → List (Option Char)
  | [] => []
  | lead :: bs => (step lead bs).1 :: scan (step lead bs).2
termination_by bs => bs.length
decreasing_by
  have := length_step lead bs
  simp only [List.length_cons]
  omega

/-- The text, when every byte belongs to a character. -/
def decode? (bs : Bytes) : Option String := ((scan bs).mapM id).map String.ofList

/-- The text, with U+FFFD in place of each unreadable part. -/
def decodeLossy (bs : Bytes) : String :=
  String.ofList ((scan bs).map fun c => c.getD (Char.ofNat 0xFFFD))

end Utf8

end Bringup.Text
