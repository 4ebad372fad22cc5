import Bringup.Toml.Scan

/-!
Whole TOML documents.

* `Toml.descend`: a change inside a nested table, tables that are missing made on the way.
* `Toml.parse?`: the table that a text spells, or none when the text is no TOML.
-/

namespace Bringup.Toml

set_option autoImplicit false

/-! ## Tables -/

/-- The value of a name. -/
def lookup? (name : String) (entries : List Entry) : Option Value :=
  (entries.find? fun e => e.1.name == name).map Prod.snd

/-- The entries with the value of a name replaced. -/
def replace (name : String) (value : Value) (entries : List Entry) : List Entry :=
  entries.map fun e => if e.1.name == name then (e.1, value) else e

/-- A change inside the table that a path leads to. A table that is missing is made. A path goes into
the last of an array of tables. It does not go into a table in braces, and a dotted key does not go
into a table with a header of its own. -/
def descend (dotted : Bool) (change : TableKind → List Entry → Option (List Entry)) :
    List Key → TableKind → List Entry → Option (List Entry)
  | [], kind, entries => change kind entries
  | key :: path, _, entries =>
    match lookup? key.name entries with
    | none => do
      let kind : TableKind := if dotted then .dotted else .implicit
      let inner ← descend dotted change path kind []
      return entries ++ [(key, .table key.span kind inner)]
    | some (.table span kind inner) =>
      if kind = .inline ∨ (dotted ∧ kind = .header) then none
      else do
        let inner ← descend dotted change path kind inner
        return replace key.name (.table span kind inner) entries
    | some (.array span true items) =>
      match items.getLast? with
      | some (.table inside kind inner) => do
        let inner ← descend dotted change path kind inner
        let items := items.dropLast ++ [.table inside kind inner]
        return replace key.name (.array span true items) entries
      | _ => none
    | _ => none

/-- An entry is added under a key. A dotted key ends in a table made by dotted keys. -/
def insert (path : List Key) (key : Key) (value : Value) (kind : TableKind) (entries : List Entry) :
    Option (List Entry) :=
  descend true
    (fun kind entries =>
      if (kind == .dotted) == path.isEmpty then none
      else if (lookup? key.name entries).isSome then none
      else some (entries ++ [(key, value)]))
    path kind entries

/-- A table is opened by its header. -/
def openTable (path : List Key) (key : Key) (span : Span) (entries : List Entry) :
    Option (List Entry) :=
  descend false
    (fun _ entries =>
      match lookup? key.name entries with
      | none => some (entries ++ [(key, .table span .header [])])
      | some (.table _ .implicit inner) => some (replace key.name (.table span .header inner) entries)
      | _ => none)
    path .header entries

/-- One more table is opened in an array of tables. -/
def openItem (path : List Key) (key : Key) (span : Span) (entries : List Entry) :
    Option (List Entry) :=
  let item : Value := .table span .header []
  descend false
    (fun _ entries =>
      match lookup? key.name entries with
      | none => some (entries ++ [(key, .array span true [item])])
      | some (.array first true items) =>
        some (replace key.name (.array first true (items ++ [item])) entries)
      | _ => none)
    path .header entries

/-! ## Values -/

/-- A character of a word such as a number or a date. -/
def isWordChar (c : Char) : Bool :=
  c.isAlphanum || c == '+' || c == '-' || c == '_' || c == '.' || c == ':'

/-- A word. A date may be followed by a space and a time. -/
def scalarWord : Scan (List Char) := do
  let word ← takeWhile isWordChar
  match (← get).rest with
  | ' ' :: c :: _ =>
    if c.isDigit && afterDate word == some [] then
      advance 1
      return word ++ ' ' :: (← takeWhile isWordChar)
    else return word
  | _ => return word

/-- A value that is neither a string nor nested. -/
def scalar : Scan Value := do
  let (word, span) ← spanned scalarWord
  if word == ['t', 'r', 'u', 'e'] then return .boolean span true
  else if word == ['f', 'a', 'l', 's', 'e'] then return .boolean span false
  else match integer? word, float? word with
    | some n, _ => return .integer span n
    | none, some (some x) => return .float span x
    | none, some none => return .overflow span
    | none, none => if isTime word then return .time span else refuse

mutual

/-- A value at a depth of nesting. The fuel is more than the number of characters left. -/
def value : Nat → Nat → Scan Value
  | 0, _ => refuse
  | fuel + 1, depth => do
    match ← peek with
    | some '"' => do let (s, span) ← spanned (string '"'); return .string span s
    | some '\'' => do let (s, span) ← spanned (string '\''); return .string span s
    | some '[' =>
      if depth = 0 then refuse
      else
        let (items, span) ← spanned do advance 1; arrayItems fuel (depth - 1)
        return .array span false items
    | some '\x7b' =>
      if depth = 0 then refuse
      else
        let (entries, span) ← spanned do advance 1; inlineEntries fuel (depth - 1) []
        return .table span .inline entries
    | _ => scalar

/-- The items of an array and its closing bracket. -/
def arrayItems : Nat → Nat → Scan (List Value)
  | 0, _ => refuse
  | fuel + 1, depth => do
    spacing (fuel + 1)
    if ← looksAt [']'] then
      advance 1
      return []
    let item ← value fuel depth
    spacing (fuel + 1)
    if ← looksAt [','] then
      advance 1
      return item :: (← arrayItems fuel depth)
    else
      expect ']'
      return [item]

/-- The entries of a table in braces, after those so far, and its closing brace. -/
def inlineEntries : Nat → Nat → List Entry → Scan (List Entry)
  | 0, _, _ => refuse
  | fuel + 1, depth, entries => do
    spacing (fuel + 1)
    if ← looksAt ['\x7d'] then
      advance 1
      return entries
    let (path, name) ← key
    spacing (fuel + 1)
    expect '='
    spacing (fuel + 1)
    let item ← value fuel depth
    match insert path name item .inline entries with
    | none => refuse
    | some entries =>
      spacing (fuel + 1)
      if ← looksAt [','] then
        advance 1
        inlineEntries fuel depth entries
      else
        expect '\x7d'
        return entries

end

/-! ## Documents -/

/-- A document as far as it was read: the path of the open table, and the entries of the root. -/
structure Draft where
  path : List Key := []
  entries : List Entry := []

/-- The draft with its entries changed, unless they may not be. -/
def Draft.update (draft : Draft) (entries : Option (List Entry)) (path : List Key) : Scan Draft :=
  match entries with
  | some entries => return { draft with path, entries }
  | none => refuse

/-- A header in single or double brackets. -/
def header (draft : Draft) : Scan Draft := do
  let double ← looksAt ['[', '[']
  let ((path, name), span) ← spanned do
    advance (if double then 2 else 1)
    inlineBlanks
    let name ← key
    expect ']'
    if double then expect ']'
    return name
  let opened := if double then openItem else openTable
  draft.update (opened path name span draft.entries) (path ++ [name])

/-- A key and its value. -/
def assignment (draft : Draft) : Scan Draft := do
  let (path, name) ← key
  expect '='
  inlineBlanks
  let item ← value ((← get).rest.length + 1) depthLimit
  draft.update (descend false (insert path name item) draft.path .header draft.entries) draft.path

/-- The lines of a document. The fuel is more than the number of characters left. -/
def lines : Nat → Draft → Scan Draft
  | 0, _ => refuse
  | fuel + 1, draft => do
    spacing (fuel + 1)
    match ← peek with
    | none => return draft
    | some c =>
      let draft ← if c == '[' then header draft else assignment draft
      endOfLine
      lines fuel draft

/-- A document, perhaps after a byte order mark. -/
def document : Scan Draft := do
  if ← looksAt ['\ufeff'] then advance 1
  lines ((← get).rest.length + 1) {}

/-- The entries of the table that a text spells, or none when the text is no TOML. -/
def parse? (text : String) : Option (List Entry) :=
  (document.run ⟨text.toList, 0⟩).map fun (draft, _) => draft.entries

end Bringup.Toml
