import Bringup.Text.Regex.Scan

/-!
Classes of characters in brackets.

A class is a union of characters, ranges and other classes. Unions may be cut with, taken from or set
against each other, from left to right.
-/

namespace Bringup.Text.Regex

set_option autoImplicit false

/-- A class of characters. -/
abbrev Class := Char → Bool

/-- The letters that differ from a character in case only, the character among them. Two signs beyond
ASCII go with letters of ASCII. -/
def caseMates (c : Char) : List Char :=
  let longS := Char.ofNat 0x17F
  let kelvin := Char.ofNat 0x212A
  if c == 's' || c == 'S' || c == longS then ['s', 'S', longS]
  else if c == 'k' || c == 'K' || c == kelvin then ['k', 'K', kelvin]
  else if c.isAlpha then [c.toLower, c.toUpper]
  else [c]

/-- A class with the other case of its letters, where case does not count. -/
def Flags.folded (f : Flags) (cls : Class) : Class :=
  if f.ignoreCase then fun c => (caseMates c).any cls else cls

/-- The classes with a name, all in ASCII. -/
def namedClass? (name : String) : Option Class :=
  let between (low high : Char) : Class := fun c => decide (low ≤ c ∧ c ≤ high)
  match name with
  | "alnum" => some Char.isAlphanum
  | "alpha" => some Char.isAlpha
  | "ascii" => some fun c => c.toNat < 0x80
  | "blank" => some fun c => c == '\t' || c == ' '
  | "cntrl" => some fun c => c.toNat < 0x20 || c.toNat == 0x7F
  | "digit" => some Char.isDigit
  | "graph" => some (between '!' '~')
  | "lower" => some Char.isLower
  | "print" => some (between ' ' '~')
  | "punct" => some fun c => between '!' '~' c && !c.isAlphanum
  | "space" => some isAsciiBlank
  | "upper" => some Char.isUpper
  | "word" => some isAsciiWord
  | "xdigit" => some fun c => (hexValue? c).isSome
  | _ => none

/-- A class by its name between colons, if one comes next. -/
def namedClass : Read (Option Class) := do
  let before ← get
  if !(← takes ['[', ':']) then return none
  let negated ← takes ['^']
  let name := (← get).rest.takeWhile (· != ':')
  drop name.length
  let closed ← takes [':', ']']
  match if closed then namedClass? (String.ofList name) else none with
  | some cls => return some fun c => cls c != negated
  | none =>
    set before
    return none

/-- How a union goes with those before it. -/
inductive Operation where
  | intersection
  | difference
  | symmetricDifference
deriving DecidableEq, Repr

/-- The operation of a doubled sign, if one comes next. -/
def operation : Read (Option Operation) := do
  if ← takes ['&', '&'] then return some .intersection
  else if ← takes ['-', '-'] then return some .difference
  else if ← takes ['~', '~'] then return some .symmetricDifference
  else return none

/-- Two classes in an operation. -/
def Operation.apply : Operation → Class → Class → Class
  | intersection, a, b => fun c => a c && b c
  | difference, a, b => fun c => a c && !b c
  | symmetricDifference, a, b => fun c => a c != b c

/-- A union after the operations before it. -/
def combined (left : Option (Operation × Class)) (union : Class) : Class :=
  match left with
  | some (op, before) => op.apply before union
  | none => union

/-- A class to which another is added. -/
def joined (a b : Class) : Class := fun c => a c || b c

/-- The class of one character. -/
def single (c : Char) : Class := fun d => d == c

/-- One character, or an escape. -/
def classAtom : Read (Atom × Span) := do
  match ← peek with
  | some '\\' => escape
  | c =>
    let start ← place
    let _ ← step
    return (.literal (c.getD ' '), ⟨start, ← place⟩)

/-- A character at an end of a range. -/
def rangeEnd (atom : Atom) (span : Span) : Read Char :=
  match atom with
  | .literal c => return c
  | _ => fail .classRange span

/-- One part of a union: a character, a class or a range. A dash at the end or in front of another dash
makes no range. -/
def classPart (opened : Span) : Read Class := do
  let (first, span) ← classAtom
  space
  if (← get).rest.isEmpty then fail .classUnclosed opened
  let behind ← peekFurther
  if (← peek) != some '-' || behind == some ']' || behind == some '-' then
    match first with
    | .literal c => return single c
    | .cls holds => return holds
    | .spot _ => fail .classEscape span
  else
    if !(← advance) then fail .classUnclosed opened
    let (last, lastSpan) ← classAtom
    let low ← rangeEnd first span
    let high ← rangeEnd last lastSpan
    if high < low then fail .classOrder ⟨span.start, lastSpan.stop⟩
    return fun c => decide (low ≤ c ∧ c ≤ high)

/-- Dashes at the start of a class, which stand for themselves. -/
def leadingDashes (start : Nat) : Nat → Class → Read Class
  | 0, union => return union
  | fuel + 1, union => do
    if (← peek) == some '-' then
      if !(← advance) then fail .classUnclosed ⟨start, start⟩
      leadingDashes start fuel (joined union (single '-'))
    else return union

/-- The start of a class: its stretch, whether it is negated, and what stands for itself there. -/
def classStart : Read (Span × Bool × Class) := do
  let start ← place
  if !(← advance) then failSince .classUnclosed start
  let negated := (← peek) == some '^'
  if negated then
    if !(← advance) then failSince .classUnclosed start
  let dashes ← leadingDashes start ((← get).rest.length + 1) fun _ => false
  let union ←
    if (← peek) == some ']' && !dashes '-' then do
      if !(← advance) then failSince .classUnclosed start
      pure (single ']')
    else pure dashes
  return (⟨start, ← place⟩, negated, union)

/-- The rest of a class and its closing bracket. The fuel is more than the number of characters left. -/
def classRest : Nat → Span → Option (Operation × Class) → Class → Read Class
  | 0, opened, _, _ => fail .classUnclosed opened
  | fuel + 1, opened, left, union => do
    space
    let flags := (← get).flags
    match ← peek with
    | none => fail .classUnclosed opened
    | some ']' =>
      let _ ← step
      return combined left (flags.folded union)
    | some '[' =>
      match ← namedClass with
      | some cls => classRest fuel opened left (joined union cls)
      | none =>
        let (inner, negated, start) ← classStart
        let cls ← classRest fuel inner none start
        classRest fuel opened left (joined union fun c => cls c != negated)
    | some _ =>
      match ← operation with
      | some op =>
        let before := combined left (flags.folded union)
        classRest fuel opened (some (op, before)) fun _ => false
      | none => classRest fuel opened left (joined union (← classPart opened))

/-- A class in brackets. -/
def bracketed : Read Regex := do
  let (opened, negated, start) ← classStart
  let cls ← classRest ((← get).rest.length + 1) opened none start
  if negated && !(← get).flags.unicode then object .notUtf8 ⟨opened.start, ← place⟩
  return .one fun c => cls c != negated

end Bringup.Text.Regex
