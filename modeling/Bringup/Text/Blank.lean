import Bringup.Text.Ranges

/-!
White space as the Unicode property `White_Space` has it, and trimming by it.

* `isBlank`: the property as a test.
* `trim`: a text without the blanks at its two ends.
-/

namespace Bringup.Text

set_option autoImplicit false

/-- The code points with the property `White_Space`. -/
def blankRanges : Ranges :=
  [(0x09, 0x0D), (0x20, 0x20), (0x85, 0x85), (0xA0, 0xA0), (0x1680, 0x1680), (0x2000, 0x200A),
    (0x2028, 0x2029), (0x202F, 0x202F), (0x205F, 0x205F), (0x3000, 0x3000)]

/-- The character is white space. -/
def isBlank (c : Char) : Bool := inRanges blankRanges c

/-- Blanks at the start are dropped. -/
def trimLeft (cs : List Char) : List Char := cs.dropWhile isBlank

/-- Blanks at the end are dropped. -/
def trimRight (cs : List Char) : List Char := (cs.reverse.dropWhile isBlank).reverse

/-- Blanks at both ends are dropped, and none inside. -/
def trim (s : String) : String := String.ofList (trimRight (trimLeft s.toList))

/-- Nothing but blanks stands in the text. -/
def allBlank (s : String) : Bool := s.toList.all isBlank

end Bringup.Text
