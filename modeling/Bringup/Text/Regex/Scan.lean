import Bringup.Text.Blank
import Bringup.Text.Digit
import Bringup.Text.Regex
import Bringup.Text.Regex.Fault

/-!
Reading a regular expression from the left: flags, blanks, numbers and escapes.

A fault of form ends the reading. A fault of meaning is kept, since a fault of form further on goes
first.
-/

namespace Bringup.Text.Regex

set_option autoImplicit false

/-- How characters are taken. -/
structure Flags where
  /-- Letters stand for both cases. -/
  ignoreCase : Bool := false
  /-- Every line has a start and an end. -/
  multiLine : Bool := false
  /-- A dot stands for a line feed too. -/
  dotAll : Bool := false
  /-- Classes go beyond ASCII. -/
  unicode : Bool := true
  /-- A carriage return is part of a line break. -/
  crlf : Bool := false
  /-- Blanks and comments in the expression do not count. -/
  spaced : Bool := false
deriving DecidableEq, Repr

/-- What is left to read, and what was gathered on the way. -/
structure Cursor where
  rest : List Char
  offset : Nat := 0
  flags : Flags := {}
  /-- The names of groups and where they stand. -/
  names : List (String × Span) := []
  /-- The first fault of meaning. -/
  late : Option Error := none

/-- A reader of expressions. -/
abbrev Read := StateT Cursor (Except Error)

variable {α : Type}

/-- A fault at a stretch. -/
def fail (fault : Fault) (span : Span) : Read α := throw { fault, span }

/-- The place that is reached. -/
def place : Read Nat := do return (← get).offset

/-- A fault from a place up to here. -/
def failSince (fault : Fault) (start : Nat) : Read α := do fail fault ⟨start, ← place⟩

/-- A fault here. -/
def failHere (fault : Fault) : Read α := do failSince fault (← place)

/-- A fault at the next character. -/
def failChar (fault : Fault) : Read α := do
  let start ← place
  fail fault ⟨start, start + 1⟩

/-- A fault of meaning, which counts if it is the first. -/
def object (fault : Fault) (span : Span) : Read Unit :=
  modify fun s => { s with late := s.late.or (some { fault, span }) }

/-- The next character, which stays where it is. -/
def peek : Read (Option Char) := do return (← get).rest.head?

/-- The text goes on with some characters. -/
def looksAt (cs : List Char) : Read Bool := do return cs.isPrefixOf (← get).rest

/-- So many characters are passed. -/
def drop (n : Nat) : Read Unit := modify fun s => { s with rest := s.rest.drop n, offset := s.offset + n }

/-- Characters are passed if the text goes on with them. -/
def takes (cs : List Char) : Read Bool := do
  if ← looksAt cs then
    drop cs.length
    return true
  else return false

/-- A text behind the blanks and comments at its start. -/
def afterSpace : (inComment : Bool) → List Char → List Char
  | _, [] => []
  | true, c :: cs => afterSpace (c != '\n') cs
  | false, c :: cs =>
    if isBlank c then afterSpace false cs
    else if c == '#' then afterSpace true cs
    else c :: cs

/-- Blanks and comments are passed where they do not count. -/
def space : Read Unit := do
  let s ← get
  if s.flags.spaced then drop (s.rest.length - (afterSpace false s.rest).length)

/-- One character is passed; something is left behind it. -/
def step : Read Bool := do
  drop (min 1 (← get).rest.length)
  return !(← get).rest.isEmpty

/-- One character is passed, and the space behind it; something is left behind that. -/
def advance : Read Bool := do
  if ← step then
    space
    return !(← get).rest.isEmpty
  else return false

/-- The character after the next one, across space. -/
def peekFurther : Read (Option Char) := do
  let s ← get
  let behind := s.rest.drop 1
  return (if s.flags.spaced then afterSpace false behind else behind).head?

/-! ## Numbers -/

/-- Digits of a number, with the space between them. -/
def digits : Nat → Read (List Char)
  | 0 => return []
  | fuel + 1 => do
    match (← peek).filter Char.isDigit with
    | none => return []
    | some d =>
      let _ ← advance
      return d :: (← digits fuel)

/-- Blanks around a number are passed. -/
def blanks : Read Unit := do drop ((← get).rest.takeWhile isBlank).length

/-- The least number that is too great for a count. -/
def countLimit : Nat := 0x100000000

/-- A count, or what is wrong with it. -/
def count : Read (Except Error Nat) := do
  blanks
  let start ← place
  let ds ← digits ((← get).rest.length + 1)
  let span : Span := ⟨start, ← place⟩
  blanks
  let n := ds.foldl (fun n d => 10 * n + (d.toNat - '0'.toNat)) 0
  if ds.isEmpty then return .error { fault := .countDigits, span }
  else if countLimit ≤ n then return .error { fault := .countNumber, span }
  else return .ok n

/-! ## Escapes -/

/-- What one character, or an escape, stands for. -/
inductive Atom where
  | literal (c : Char)
  | cls (holds : Char → Bool)
  | spot (here : Spot → Bool)

/-- The value of a hexadecimal digit. -/
def hexValue? (c : Char) : Option Nat :=
  if c.isDigit then some (c.toNat - '0'.toNat)
  else if 'a' ≤ c ∧ c ≤ 'f' then some (c.toNat - 'a'.toNat + 10)
  else if 'A' ≤ c ∧ c ≤ 'F' then some (c.toNat - 'A'.toNat + 10)
  else none

/-- The character of a code. -/
def codeChar (code : Nat) (span : Span) : Read Char :=
  if h : code.isValidChar then return Char.ofNatAux code h else fail .hexCode span

/-- The digit that comes next, in hexadecimal. -/
def hexDigit : Read Nat := do
  match (← peek).bind hexValue? with
  | some d => return d
  | none => failChar .hexDigit

/-- The value of so many hexadecimal digits more. -/
def hexDigits : Nat → Nat → Read Nat
  | 0, value => return value
  | left + 1, value => do
    if !(← advance) then failHere .escapeEnd
    hexDigits left (16 * value + (← hexDigit))

/-- The value of the hexadecimal digits up to a brace, and how many they are. -/
def bracedDigits : Nat → Nat → Nat → Read (Nat × Nat)
  | 0, value, n => return (value, n)
  | fuel + 1, value, n => do
    if !(← advance) || (← peek) == some '\x7d' then return (value, n)
    else bracedDigits fuel (16 * value + (← hexDigit)) (n + 1)

/-- The character of a hexadecimal code, in braces or with so many digits. -/
def hexCode (width : Nat) : Read Char := do
  if !(← advance) then failHere .escapeEnd
  let start ← place
  if (← peek) == some '\x7b' then
    let (code, n) ← bracedDigits ((← get).rest.length + 1) 0 0
    if (← get).rest.isEmpty then failSince .escapeEnd start
    let stop ← place
    let _ ← advance
    if n = 0 then failSince .hexEmpty start
    codeChar code ⟨start + 1, stop⟩
  else
    let code ← hexDigits (width - 1) (← hexDigit)
    let _ ← advance
    codeChar code ⟨start, ← place⟩

/-- The name up to a brace is passed. -/
def bracedName : Nat → Read Unit
  | 0 => return
  | fuel + 1 => do
    if (← advance) && (← peek) != some '\x7d' then bracedName fuel

/-- A property of characters by its name. No property is known, so every name is objected to. -/
def property (start : Nat) : Read Atom := do
  if !(← advance) then failHere .escapeEnd
  match ← peek with
  | some '\x7b' =>
    bracedName ((← get).rest.length + 1)
    if (← get).rest.isEmpty then failHere .escapeEnd
    let _ ← step
  | some '\\' => failChar .propertyName
  | _ => let _ ← advance
  object .propertyUnknown ⟨start, ← place⟩
  return .cls fun _ => false

/-- White space in ASCII. -/
def isAsciiBlank (c : Char) : Bool := c == ' ' || (9 ≤ c.toNat && c.toNat ≤ 13)

/-- A word character in ASCII. -/
def isAsciiWord (c : Char) : Bool := c.isAlphanum || c == '_'

/-- The word characters. -/
def Flags.word (f : Flags) : Char → Bool := if f.unicode then isWord else isAsciiWord

/-- The class that a letter stands for after a backslash. -/
def Flags.letterClass? (f : Flags) (letter : Char) : Option (Char → Bool) :=
  match letter with
  | 'd' => some (if f.unicode then isDigit else Char.isDigit)
  | 's' => some (if f.unicode then isBlank else isAsciiBlank)
  | 'w' => some f.word
  | _ => none

/-- A class by its letter; a capital stands for all other characters. -/
def letterClass (start : Nat) (letter : Char) (holds : Char → Bool) : Read Atom := do
  let _ ← step
  if letter.isUpper then
    if !(← get).flags.unicode then object .notUtf8 ⟨start, ← place⟩
    return .cls fun c => !holds c
  else return .cls holds

/-- The spot follows a word character. -/
def afterWord (word : Char → Bool) (s : Spot) : Bool := s.past.head?.any word

/-- The spot stands before a word character. -/
def beforeWord (word : Char → Bool) (s : Spot) : Bool := s.rest.head?.any word

/-- The boundaries of words by name. -/
def boundary? (word : Char → Bool) (name : String) : Option (Spot → Bool) :=
  match name with
  | "start" => some fun s => !afterWord word s && beforeWord word s
  | "end" => some fun s => afterWord word s && !beforeWord word s
  | "start-half" => some fun s => !afterWord word s
  | "end-half" => some fun s => !beforeWord word s
  | _ => none

/-- Letters and dashes, with the space between them. -/
def boundaryName : Nat → Read (List Char)
  | 0 => return []
  | fuel + 1 => do
    match (← peek).filter fun c => c.isAlpha || c == '-' with
    | none => return []
    | some c =>
      let _ ← advance
      return c :: (← boundaryName fuel)

/-- A boundary of words that is named in braces. Without a name the braces hold a count, and nothing is
read. -/
def namedBoundary (start : Nat) (word : Char → Bool) : Read (Option (Spot → Bool)) := do
  let before ← get
  if !(← advance) then failSince .boundaryEnd start
  let inner ← place
  let name ← boundaryName ((← get).rest.length + 1)
  if name.isEmpty then
    set before
    return none
  if (← peek) != some '\x7d' then failSince .boundaryUnclosed before.offset
  let stop ← place
  let _ ← step
  match boundary? word (String.ofList name) with
  | some here => return some here
  | none => fail .boundaryName ⟨inner, stop⟩

/-- The boundary of a word, of any kind. -/
def wordBoundary (start : Nat) (word : Char → Bool) : Read (Spot → Bool) := do
  let either : Spot → Bool := fun s => afterWord word s != beforeWord word s
  if (← peek) == some '\x7b' then return (← namedBoundary start word).getD either
  else return either

/-- A character that stands for itself after a backslash: all of ASCII but letters, digits and angles. -/
def isEscapable (c : Char) : Bool := c.toNat < 0x80 && !c.isAlphanum && c != '<' && c != '>'

/-- The control characters by letter. -/
def control? (c : Char) : Option Char :=
  match c with
  | 'a' => some '\x07'
  | 'f' => some '\x0c'
  | 't' => some '\t'
  | 'n' => some '\n'
  | 'r' => some '\r'
  | 'v' => some '\x0b'
  | _ => none

/-- The spots by letter, but for the boundaries that may have a name. -/
def spot? (word : Char → Bool) (c : Char) : Option (Spot → Bool) :=
  match c with
  | 'A' => some fun s => s.past.isEmpty
  | 'z' => some fun s => s.rest.isEmpty
  | 'B' => some fun s => afterWord word s == beforeWord word s
  | '<' => boundary? word "start"
  | '>' => boundary? word "end"
  | _ => none

/-- What an escape of a single character stands for, the character read. -/
def shortEscape (start : Nat) (c : Char) : Read Atom := do
  let word := (← get).flags.word
  if isEscapable c then return .literal c
  else match control? c, spot? word c with
    | some d, _ => return .literal d
    | none, some here => return .spot here
    | none, none =>
      if c == 'b' then return .spot (← wordBoundary start word)
      else failSince .escapeUnknown start

/-- What an escape stands for, and its stretch. -/
def escape : Read (Atom × Span) := do
  let start ← place
  if !(← step) then failSince .escapeEnd start
  let c := (← peek).getD ' '
  let atom ←
    if c.isDigit then fail .backreference ⟨start, (← place) + 1⟩
    else if c == 'x' then pure (.literal (← hexCode 2))
    else if c == 'u' then pure (.literal (← hexCode 4))
    else if c == 'U' then pure (.literal (← hexCode 8))
    else if c == 'p' || c == 'P' then property start
    else match (← get).flags.letterClass? c.toLower with
      | some holds => letterClass start c holds
      | none => do
        let _ ← step
        shortEscape start c
  return (atom, ⟨start, ← place⟩)

end Bringup.Text.Regex
