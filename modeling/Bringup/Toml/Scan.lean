import Bringup.Toml.Scalar
import Bringup.Toml.Value

/-!
Reading TOML text from the left: blanks, comments, strings and keys.

A reader gives nothing when the text is no TOML; why and where is not kept.
-/

namespace Bringup.Toml

set_option autoImplicit false

/-- What is left to read, and how many characters were read. -/
structure Cursor where
  rest : List Char
  offset : Nat

/-- A reader of TOML text. -/
abbrev Scan := StateT Cursor Option

variable {α : Type}

/-- The text is no TOML. -/
def refuse : Scan α := fun _ => none

/-- The next character, which stays where it is. -/
def peek : Scan (Option Char) := do return (← get).rest.head?

/-- So many characters are passed. -/
def advance (n : Nat) : Scan Unit := modify fun s => ⟨s.rest.drop n, s.offset + n⟩

/-- The next character. -/
def next : Scan Char := do
  match (← get).rest with
  | [] => refuse
  | c :: _ => advance 1; return c

/-- The text goes on with some characters. -/
def looksAt (cs : List Char) : Scan Bool := do return cs.isPrefixOf (← get).rest

/-- A character that has to come next. -/
def expect (c : Char) : Scan Unit := do
  if (← next) != c then refuse

/-- Every character of a class that comes next. -/
def takeWhile (cls : Char → Bool) : Scan (List Char) := do
  let taken := (← get).rest.takeWhile cls
  advance taken.length
  return taken

/-- What a reader gives, and the stretch that it read. -/
def spanned (reader : Scan α) : Scan (α × Span) := do
  let start := (← get).offset
  let a ← reader
  return (a, ⟨start, (← get).offset⟩)

/-! ## Blanks and comments -/

/-- A space or a tab. -/
def isInlineBlank (c : Char) : Bool := c == ' ' || c == '\t'

/-- A character that may stand in a comment or in quotes. -/
def isTextChar (c : Char) : Bool := c == '\t' || (0x20 ≤ c.toNat && c.toNat != 0x7F)

/-- Spaces and tabs are passed. -/
def inlineBlanks : Scan Unit := do let _ ← takeWhile isInlineBlank

/-- A line break is passed, if one comes next. -/
def lineBreak : Scan Bool := do
  if ← looksAt ['\n'] then do advance 1; return true
  else if ← looksAt ['\r', '\n'] then do advance 2; return true
  else return false

/-- A comment is passed, if one comes next; it ends with its line. -/
def comment : Scan Unit := do
  if ← looksAt ['#'] then
    let _ ← takeWhile isTextChar
    let ended := (← get).rest.isEmpty || (← looksAt ['\n']) || (← looksAt ['\r', '\n'])
    if !ended then refuse

/-- Blanks, comments and line breaks are passed. The fuel is more than the number of lines. -/
def spacing : Nat → Scan Unit
  | 0 => refuse
  | fuel + 1 => do
    inlineBlanks
    comment
    if ← lineBreak then spacing fuel

/-- The rest of a line, which holds nothing but a comment. -/
def endOfLine : Scan Unit := do
  inlineBlanks
  comment
  if !(← lineBreak) && !(← get).rest.isEmpty then refuse

/-! ## Strings -/

/-- The character whose code has so many hexadecimal digits. -/
def codeEscape : Nat → Nat → Scan Char
  | 0, code => if h : code.isValidChar then return Char.ofNatAux code h else refuse
  | left + 1, code => do
    match hexDigit? (← next) with
    | some d => codeEscape left (code * 16 + d)
    | none => refuse

/-- The character that an escape stands for, its backslash read. -/
def escape : Scan Char := do
  match ← next with
  | 'b' => return '\x08'
  | 't' => return '\t'
  | 'n' => return '\n'
  | 'f' => return '\x0c'
  | 'r' => return '\r'
  | 'e' => return '\x1b'
  | '"' => return '"'
  | '\\' => return '\\'
  | 'x' => codeEscape 2 0
  | 'u' => codeEscape 4 0
  | 'U' => codeEscape 8 0
  | _ => refuse

/-- The rest of a string on one line. Escapes count only between double quotes. -/
def lineString (quote : Char) : Nat → Scan (List Char)
  | 0 => refuse
  | fuel + 1 => do
    let c ← next
    if c == quote then return []
    else if c == '\\' && quote == '"' then
      let e ← escape
      return e :: (← lineString quote fuel)
    else if isTextChar c then return c :: (← lineString quote fuel)
    else refuse

/-- A line break after a backslash, with the blanks around it. -/
def joinedLines (fuel : Nat) : Scan Unit := do
  inlineBlanks
  if !(← lineBreak) then refuse
  loop fuel
where
  /-- Blanks and line breaks are passed. -/
  loop : Nat → Scan Unit
    | 0 => refuse
    | fuel + 1 => do
      inlineBlanks
      if ← lineBreak then loop fuel

/-- The rest of a string over several lines, which may end in one or two quotes of its own. -/
def blockString (quote : Char) : Nat → Scan (List Char)
  | 0 => refuse
  | fuel + 1 => do
    if ← looksAt [quote, quote, quote] then
      let quotes ← takeWhile (· == quote)
      if 5 < quotes.length then refuse else return quotes.drop 3
    else if ← looksAt ['\r', '\n'] then
      advance 2
      return '\r' :: '\n' :: (← blockString quote fuel)
    else
      let c ← next
      if c == '\\' && quote == '"' then
        let following ← peek
        if following.any fun d => isInlineBlank d || d == '\n' || d == '\r' then
          joinedLines (fuel + 1)
          blockString quote fuel
        else
          let e ← escape
          return e :: (← blockString quote fuel)
      else if c == '\n' || isTextChar c then return c :: (← blockString quote fuel)
      else refuse

/-- A string, the quote given that it starts with. -/
def string (quote : Char) : Scan String := do
  let fuel := (← get).rest.length + 1
  if ← looksAt [quote, quote, quote] then
    advance 3
    let _ ← lineBreak
    return String.ofList (← blockString quote fuel)
  else
    advance 1
    return String.ofList (← lineString quote fuel)

/-! ## Keys -/

/-- A character of a key without quotes. -/
def isBareKeyChar (c : Char) : Bool := c.isAlphanum || c == '_' || c == '-'

/-- One part of a key. -/
def simpleKey : Scan Key := do
  let (name, span) ← spanned do
    match ← peek with
    | some '"' => do advance 1; lineString '"' ((← get).rest.length + 1)
    | some '\'' => do advance 1; lineString '\'' ((← get).rest.length + 1)
    | _ =>
      let name ← takeWhile isBareKeyChar
      if name.isEmpty then refuse else return name
  return ⟨String.ofList name, span⟩

/-- The parts of a key after the first. -/
def keyTail : Nat → Scan (List Key)
  | 0 => refuse
  | fuel + 1 => do
    inlineBlanks
    if ← looksAt ['.'] then
      advance 1
      inlineBlanks
      let key ← simpleKey
      return key :: (← keyTail fuel)
    else return []

/-- The most parts that a key may have, and the deepest nesting of values. -/
def depthLimit : Nat := 80

/-- A key: the parts before the last, and the last. Blanks after it are passed. -/
def key : Scan (List Key × Key) := do
  let first ← simpleKey
  let others ← keyTail depthLimit
  let all := first :: others
  return (all.dropLast, all.getLastD first)

end Bringup.Toml
