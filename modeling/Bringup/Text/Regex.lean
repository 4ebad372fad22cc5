import Bringup.Text.Pattern

/-!
Regular expressions, and the texts in which they occur.

Unlike a `Pattern`, an expression has no order of preference: all that is asked is whether it occurs.
The ends that it may reach from a spot are a set, kept as a list in which no spot stands twice.

* `Regex.ends`: where an expression may end.
* `Regex.occursIn`: whether it occurs in a text.
-/

namespace Bringup.Text

set_option autoImplicit false

/-- What may occur in a text. -/
inductive Regex where
  /-- Nothing, found everywhere. -/
  | empty
  /-- A spot of some kind. -/
  | spot (here : Spot → Bool)
  /-- One character of a class. -/
  | one (cls : Char → Bool)
  /-- One expression and then another. -/
  | seq (first second : Regex)
  /-- One of two expressions. -/
  | either (first second : Regex)
  /-- An expression so many times in a row, or more often up to a bound, if there is one. -/
  | repeated (body : Regex) (least : Nat) (most : Option Nat)

namespace Spot

/-- The spots of one text without repetitions. -/
def distinct (spots : List Spot) : List Spot :=
  spots.foldl
    (fun kept s => if kept.any fun k => k.rest.length == s.rest.length then kept else s :: kept) []

/-- The spots that are reached in one step from some spots. -/
def reached (step : Spot → List Spot) (spots : List Spot) : List Spot := distinct (spots.flatMap step)

/-- The spots that are reached in exactly so many steps. -/
def reachedIn (step : Spot → List Spot) : Nat → List Spot → List Spot
  | 0, spots => spots
  | n + 1, spots => reachedIn step n (reached step spots)

/-- The spots that are reached in at most so many steps. -/
def reachedWithin (step : Spot → List Spot) : Nat → List Spot → List Spot
  | 0, spots => spots
  | n + 1, spots => distinct (spots ++ reachedWithin step n (reached step spots))

end Spot

namespace Regex

/-- Expressions in a row. -/
def all (parts : List Regex) : Regex := parts.foldr seq empty

/-- Where an expression that starts at a spot may end. Past as many steps as characters are left, a
repetition reaches nothing new. -/
def ends : Regex → Spot → List Spot
  | empty, s => [s]
  | spot here, s => if here s then [s] else []
  | one cls, s =>
    match s.rest with
    | [] => []
    | c :: rest => if cls c then [⟨c :: s.past, rest⟩] else []
  | seq first second, s => Spot.reached second.ends (first.ends s)
  | either first second, s => Spot.distinct (first.ends s ++ second.ends s)
  | repeated body least most, s =>
    let further := match most with
      | some n => min (n - least) s.rest.length
      | none => s.rest.length
    Spot.reachedWithin body.ends further (Spot.reachedIn body.ends least [s])

/-- The expression occurs somewhere in a text. -/
def occursIn (r : Regex) (text : String) : Bool :=
  (Spot.all text.toList).any fun s => !(r.ends s).isEmpty

end Regex

end Bringup.Text
