import Bringup.Text.Regex.Class

/-!
Whole regular expressions.

* `Regex.parse`: the expression that a text spells, or its fault.
-/

namespace Bringup.Text.Regex

set_option autoImplicit false

/-! ## Single characters -/

/-- The start of the text, or of a line. -/
def Flags.start (f : Flags) (s : Spot) : Bool :=
  match s.past with
  | [] => true
  | c :: _ =>
    f.multiLine && (c == '\n' || f.crlf && c == '\r') && !(f.crlf && c == '\r' && s.rest.head? == some '\n')

/-- The end of the text, or of a line. -/
def Flags.stop (f : Flags) (s : Spot) : Bool :=
  match s.rest with
  | [] => true
  | c :: _ =>
    f.multiLine && (c == '\n' || f.crlf && c == '\r') && !(f.crlf && c == '\n' && s.past.head? == some '\r')

/-- Any character, but for line breaks unless they count too. -/
def Flags.dot (f : Flags) (c : Char) : Bool := f.dotAll || !(c == '\n' || f.crlf && c == '\r')

/-- The expression of a character or an escape. -/
def primitive (c : Char) : Read Regex := do
  let flags := (← get).flags
  let start ← place
  match c with
  | '\\' =>
    match ← escape with
    | (.literal d, _) => return .one (flags.folded (single d))
    | (.cls holds, _) => return .one holds
    | (.spot here, _) => return .spot here
  | '.' =>
    if !flags.unicode then object .notUtf8 ⟨start, start + 1⟩
    let _ ← step
    return .one flags.dot
  | '^' =>
    let _ ← step
    return .spot flags.start
  | '$' =>
    let _ ← step
    return .spot flags.stop
  | d =>
    let _ ← step
    return .one (flags.folded (single d))

/-! ## Repetitions -/

/-- A mark that a repetition is to take no more than it needs, which is passed. Whether the expression
occurs does not hang on it. -/
def lazyMark : Read Unit := do let _ ← takes ['?']

/-- A count that has to be right. -/
def sound (n : Except Error Nat) : Read Nat :=
  match n with
  | .ok n => return n
  | .error e => throw e

/-- The bounds of a repetition in braces. -/
def bounds : Read (Nat × Option Nat) := do
  let start ← place
  if !(← advance) then failSince .countUnclosed start
  let least ← count
  if (← get).rest.isEmpty then failSince .countUnclosed start
  let most ←
    if (← peek) == some ',' then do
      if !(← advance) then failSince .countUnclosed start
      if (← peek) == some '\x7d' then pure none
      else
        let _ ← sound least
        pure (some (← sound (← count)))
    else pure (some (← sound least))
  let least ← sound least
  if (← peek) != some '\x7d' then failSince .countUnclosed start
  let _ ← advance
  lazyMark
  if most.any (· < least) then failSince .countOrder start
  return (least, most)

/-- The bounds of the repetition that comes next. -/
def repetition (c : Char) : Read (Nat × Option Nat) := do
  if c == '\x7b' then bounds
  else
    let _ ← step
    lazyMark
    return match c with
      | '?' => (0, some 1)
      | '+' => (1, none)
      | _ => (0, none)

/-- The character starts a repetition. -/
def startsRepetition (c : Char) : Bool := c == '?' || c == '*' || c == '+' || c == '\x7b'

/-! ## Groups -/

/-- A flag is set or cleared. -/
def Flags.assign (f : Flags) (letter : Char) (value : Bool) : Flags :=
  match letter with
  | 'i' => { f with ignoreCase := value }
  | 'm' => { f with multiLine := value }
  | 's' => { f with dotAll := value }
  | 'u' => { f with unicode := value }
  | 'R' => { f with crlf := value }
  | 'x' => { f with spaced := value }
  | _ => f

/-- Flags are changed: those in front of a dash are set, the others cleared. -/
def Flags.change (f : Flags) (items : List Char) : Flags :=
  let raised := items.takeWhile (· != '-')
  let cleared := items.dropWhile (· != '-')
  cleared.foldl (fun f c => f.assign c false) (raised.foldl (fun f c => f.assign c true) f)

/-- A letter for a flag. -/
def isFlag (c : Char) : Bool := ['i', 'm', 's', 'U', 'u', 'R', 'x'].contains c

/-- The flags up to a colon or a parenthesis, each with its place. -/
def flagItems : Nat → List (Char × Nat) → Read (List (Char × Nat))
  | 0, items => return items
  | fuel + 1, items => do
    match ← peek with
    | none => failHere .flagEnd
    | some c =>
      if c == ':' || c == ')' then
        match items.getLast? with
        | some ('-', dash) => fail .flagNegation ⟨dash, dash + 1⟩
        | _ => return items
      else
        let start ← place
        if c != '-' && !isFlag c then failChar .flagUnknown
        match items.find? fun item => item.1 == c with
        | some (_, before) =>
          throw {
            fault := if c == '-' then .flagNegations else .flagTwice
            span := ⟨start, start + 1⟩
            earlier := some ⟨before, before + 1⟩ }
        | none =>
          let _ ← step
          flagItems fuel (items ++ [(c, start)])

/-- A character of a group's name. -/
def isNameChar (first : Bool) (c : Char) : Bool :=
  let letter := c == '_' || c.isAlpha || (0x80 ≤ c.toNat && isWord c)
  letter || (!first && (c == '.' || c == '[' || c == ']' || c.isDigit))

/-- The name of a group. -/
def groupName : Read Unit := do
  let start ← place
  let name := (← get).rest.takeWhile (· != '>')
  match name.zipIdx.find? fun (c, i) => !isNameChar (i == 0) c with
  | some (_, i) => fail .nameCharacter ⟨start + i, start + i + 1⟩
  | none =>
    drop name.length
    let span : Span := ⟨start, ← place⟩
    if (← get).rest.isEmpty then failHere .nameEnd
    let _ ← step
    if name.isEmpty then fail .nameEmpty ⟨start, start⟩
    let text := String.ofList name
    match (← get).names.lookup text with
    | some before => throw { fault := .nameTwice, span, earlier := some before }
    | none => modify fun s => { s with names := (text, span) :: s.names }

/-- The start of a group: true when it goes on behind it, false when it only changes flags. -/
def groupStart : Read Bool := do
  let start ← place
  let _ ← step
  space
  let inner ← place
  let looksAround ← do
    if ← takes ['?', '='] then pure true
    else if ← takes ['?', '!'] then pure true
    else if ← takes ['?', '<', '='] then pure true
    else takes ['?', '<', '!']
  if looksAround then failSince .lookAround start
  let named ← do
    if ← takes ['?', 'P', '<'] then pure true
    else takes ['?', '<']
  if named then
    groupName
    return true
  else if ← takes ['?'] then
    if (← get).rest.isEmpty then fail .groupUnclosed ⟨start, start + 1⟩
    let items ← flagItems ((← get).rest.length + 1) []
    let goesOn := (← peek) == some ':'
    let _ ← step
    if !goesOn && items.isEmpty then fail .repeatsNothing ⟨inner, inner⟩
    modify fun s => { s with flags := s.flags.change (items.map Prod.fst) }
    return goesOn
  else return true

/-- Parts in a row, given from the last to the first. A part that only changes flags is none. -/
def row (parts : List (Option Regex)) : Regex := all (parts.filterMap id).reverse

/-- One of several branches, given from the last to the first. -/
def choice (last : Regex) (branches : List Regex) : Regex := branches.foldl (fun r b => .either b r) last

/-- The branches of an expression, up to its end or the end of its group. The fuel is more than twice
the number of characters left. -/
def branches : Nat → Option Span → List (Option Regex) → List Regex → Read Regex
  | 0, _, _, _ => failHere .groupUnclosed
  | fuel + 1, opened, parts, before => do
    space
    match ← peek with
    | none =>
      match opened with
      | some span => fail .groupUnclosed span
      | none => return choice (row parts) before
    | some c =>
      if c == ')' then
        if opened.isNone then failChar .groupUnopened
        return choice (row parts) before
      else if c == '|' then
        let _ ← step
        branches fuel opened [] (row parts :: before)
      else if c == '(' then
        let start ← place
        let flags := (← get).flags
        if ← groupStart then
          let inner ← branches fuel (some ⟨start, start + 1⟩) [] []
          modify fun s => { s with flags }
          let _ ← step
          branches fuel opened (some inner :: parts) before
        else branches fuel opened (none :: parts) before
      else if c == '[' then
        let cls ← bracketed
        branches fuel opened (some cls :: parts) before
      else if startsRepetition c then
        match parts with
        | some body :: parts =>
          let (least, most) ← repetition c
          branches fuel opened (some (.repeated body least most) :: parts) before
        | _ => failHere .repeatsNothing
      else
        let part ← primitive c
        branches fuel opened (some part :: parts) before

/-- The expression that a text spells. -/
def parse (text : String) : Except Error Regex := do
  let start : Cursor := { rest := text.toList }
  let (r, s) ← (branches (2 * text.length + 1) none [] []).run start
  match s.late with
  | some e => throw e
  | none => return r

end Bringup.Text.Regex
