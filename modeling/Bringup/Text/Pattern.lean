import Bringup.Text.Word

/-!
Text patterns with an order of preference.

A pattern that starts at a spot of a text may end at several later spots. `Pattern.ends` lists them,
the preferred one first: a repetition takes as much as it can, and an optional part is taken where it
can be. A search prefers the leftmost start, and there the first end.

* `Spot`: a place between two characters of a text.
* `Pattern.ends`: where a pattern may end.
* `Pattern.find?`, `Pattern.findSplit?`: the preferred occurrence in a text.
-/

namespace Bringup.Text

set_option autoImplicit false

/-- A place in a text: the characters before it, nearest first, and the characters after it. -/
structure Spot where
  past : List Char
  rest : List Char
deriving DecidableEq, Repr

namespace Spot

/-- The places of a text, from left to right, after the part that is already passed. -/
def after (past : List Char) : List Char → List Spot
  | [] => [⟨past, []⟩]
  | c :: rest => ⟨past, c :: rest⟩ :: after (c :: past) rest

/-- Every place of a text, from left to right. -/
def all (text : List Char) : List Spot := after [] text

/-- The text that a spot stands in. -/
def text (s : Spot) : List Char := s.past.reverse ++ s.rest

/-- The characters between a spot and a later one of the same text. -/
def upTo (s e : Spot) : List Char := s.rest.take (s.rest.length - e.rest.length)

/-- The spot opens the text or follows a line feed. -/
def atLineStart (s : Spot) : Bool :=
  match s.past with
  | [] => true
  | c :: _ => c == '\n'

/-- A word character stands on exactly one side. -/
def atBoundary (s : Spot) : Bool := s.past.head?.any isWord != s.rest.head?.any isWord

end Spot

/-- What a search looks for. -/
inductive Pattern where
  /-- Nothing, found everywhere. -/
  | empty
  /-- The start of a line. -/
  | lineStart
  /-- A word boundary. -/
  | boundary
  /-- One character of a class. -/
  | one (cls : Char → Bool)
  /-- Any number of characters of a class, as many as possible. -/
  | many (cls : Char → Bool)
  /-- One pattern and then another. -/
  | seq (first second : Pattern)
  /-- A pattern or nothing, the pattern where it can be had. -/
  | optional (body : Pattern)

namespace Pattern

/-- A list of patterns in sequence. -/
def all : List Pattern → Pattern
  | [] => empty
  | p :: ps => seq p (all ps)

/-- At least one character of a class. -/
def some (cls : Char → Bool) : Pattern := seq (one cls) (many cls)

/-- The given characters and no others. -/
def literal (cs : List Char) : Pattern := all (cs.map fun c => one (· == c))

/-- The ends of a repetition, the farthest first, before those that `found` holds already. -/
def runEnds (cls : Char → Bool) (found : List Spot) : List Char → List Char → List Spot
  | past, [] => ⟨past, []⟩ :: found
  | past, c :: rest =>
    if cls c then runEnds cls (⟨past, c :: rest⟩ :: found) (c :: past) rest
    else ⟨past, c :: rest⟩ :: found

/-- Where a pattern that starts at a spot may end, the preferred end first. -/
def ends : Pattern → Spot → List Spot
  | empty, s => [s]
  | lineStart, s => if s.atLineStart then [s] else []
  | boundary, s => if s.atBoundary then [s] else []
  | one cls, s =>
    match s.rest with
    | [] => []
    | c :: rest => if cls c then [⟨c :: s.past, rest⟩] else []
  | many cls, s => runEnds cls [] s.past s.rest
  | seq first second, s => (first.ends s).flatMap second.ends
  | optional body, s => body.ends s ++ [s]

/-- The leftmost occurrence of a pattern and its preferred end. -/
def find? (p : Pattern) (text : List Char) : Option (Spot × Spot) :=
  (Spot.all text).findSome? fun s => (p.ends s).head?.map fun e => (s, e)

/-- The leftmost occurrence of two patterns in sequence, with the spot where they meet. -/
def findSplit? (first second : Pattern) (text : List Char) : Option (Spot × Spot × Spot) :=
  (Spot.all text).findSome? fun s =>
    (first.ends s).findSome? fun m => (second.ends m).head?.map fun e => (s, m, e)

end Pattern

end Bringup.Text
