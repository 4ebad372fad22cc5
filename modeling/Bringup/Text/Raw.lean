import Bringup.Text.Quoted
import Bringup.Text.Utf8

/-!
Text as the system keeps it: bytes that are meant to be UTF-8 and need not be.

Such a text is a row of characters and of bytes that no character can be read from, as `Utf8.scan` finds
them.

* `Raw.text`: the text as it is shown, with U+FFFD for what is no character.
* `Raw.isUnicode`: there are only characters.
-/

namespace Bringup.Text

set_option autoImplicit false

/-- A part of a text of the system. -/
inductive Glyph where
  | char (c : Char)
  /-- Bytes that no character can be read from. -/
  | stray (bytes : Bytes)
deriving DecidableEq, Repr

namespace Glyph

/-- The character that is shown. -/
def shown : Glyph → Char
  | char c => c
  | stray _ => Char.ofNat 0xFFFD

/-- The part is a character. -/
def isChar : Glyph → Bool
  | char _ => true
  | stray _ => false

/-- The number of bytes. -/
def size : Glyph → Nat
  | char c => c.utf8Size
  | stray bytes => bytes.length

/-- A byte as an escape, in hexadecimal. -/
def byteEscape (b : UInt8) : List Char :=
  ['\\', 'x'] ++ [b.toNat / 16, b.toNat % 16].map fun digit => (Nat.digitChar digit).toUpper

/-- The part inside quotes, where a single quote is escaped too. -/
def quoted : Glyph → List Char
  | char c => if c == '\'' then ['\\', '\''] else quotedChar c
  | stray bytes => bytes.flatMap byteEscape

end Glyph

/-- A text of the system. -/
abbrev Raw := List Glyph

namespace Raw

/-- A text that is Unicode. -/
@[coe] def ofText (s : String) : Raw := s.toList.map .char

instance : Coe String Raw := ⟨ofText⟩

/-- The text as it is shown. -/
def text (r : Raw) : String := String.ofList (r.map Glyph.shown)

/-- The text is Unicode. -/
def isUnicode (r : Raw) : Bool := r.all Glyph.isChar

/-- The number of bytes. -/
def size (r : Raw) : Nat := r.foldl (fun n glyph => n + glyph.size) 0

/-- The text in quotes. -/
def quoted (r : Raw) : String := String.ofList ('"' :: (r.flatMap Glyph.quoted ++ ['"']))

@[simp] theorem text_ofText (s : String) : (ofText s).text = s := by
  have hshown : Glyph.shown ∘ Glyph.char = id := rfl
  rw [text, ofText, List.map_map, hshown, List.map_id, String.ofList_toList]

theorem ofText_inj {s t : String} : ofText s = ofText t ↔ s = t :=
  ⟨fun h => by rw [← text_ofText s, h, text_ofText], congrArg ofText⟩

@[simp] theorem isUnicode_ofText (s : String) : (ofText s).isUnicode = true := by
  simp [isUnicode, ofText, Glyph.isChar]

/-- Nothing is lost when a text that is Unicode is shown. -/
theorem ofText_text {r : Raw} (h : r.isUnicode = true) : ofText r.text = r := by
  rw [text, ofText, String.toList_ofList, List.map_map]
  refine (List.map_congr_left fun g hg => ?_).trans (List.map_id r)
  cases g with
  | char c => rfl
  | stray bytes => cases List.all_eq_true.mp h _ hg

theorem foldl_size (r : Raw) (n : Nat) : r.foldl (fun n glyph => n + glyph.size) n = n + r.size := by
  induction r generalizing n with
  | nil => rfl
  | cons glyph r ih =>
    rw [size, List.foldl_cons, List.foldl_cons, ih, ih (0 + glyph.size)]
    omega

theorem size_append (r r' : Raw) : size (r ++ r') = r.size + size r' := by
  rw [size, List.foldl_append, foldl_size]
  rfl

@[simp] theorem char_mem_ofText {c : Char} {s : String} : Glyph.char c ∈ ofText s ↔ c ∈ s.toList := by
  simp [ofText]

end Raw

end Bringup.Text
