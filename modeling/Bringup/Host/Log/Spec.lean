import Bringup.Host.Log
import Bringup.Text.Blank
import Bringup.Text.Regex.Reader

/-!
What is to be shown of the log, as a text says it.

The text is a list of directives between commas, and perhaps a slash and a regular expression for the
messages. What cannot be read is complained of and passed over.

* `LogSpec.ofText`: the reading of a text.
* `LogSpec.filter`: the filter that it asks for.
-/

namespace Bringup

set_option autoImplicit false

/-- What a text asks to be shown. -/
structure LogSpec where
  directives : List LogDirective := []
  /-- The expression that messages have to hold. -/
  only : Option Text.Regex := none
  /-- What cannot be read. -/
  complaints : List String := []

namespace LogSpec

/-- The rank that a word asks for. -/
def rankOf? (word : String) : Option Nat :=
  if String.ofList (word.toList.map Char.toLower) == "off" then some 0
  else (LogLevel.ofName? word).map LogLevel.rank

/-- A word that is no directive. -/
def unreadable (word : String) : String := s!"invalid logging spec '{word}'"

/-- One directive: a level, a name, or a name and a level. -/
def directive (text : String) : Except String LogDirective :=
  match text.toList.splitOn '=' with
  | [word] =>
    match rankOf? (String.ofList word) with
    | some rank => .ok ⟨none, rank⟩
    | none => .ok ⟨some (String.ofList word), LogLevel.trace.rank⟩
  | [name, level] =>
    let level := Text.trim (String.ofList level)
    if level.isEmpty then .ok ⟨some (String.ofList name), LogLevel.trace.rank⟩
    else match rankOf? level with
      | some rank => .ok ⟨some (String.ofList name), rank⟩
      | none => .error (unreadable level)
  | _ => .error (unreadable text)

/-- A directive is added, or complained of. -/
def add (spec : LogSpec) (text : String) : LogSpec :=
  match directive text with
  | .ok d => { spec with directives := d.insert spec.directives }
  | .error complaint => { spec with complaints := spec.complaints ++ [complaint] }

/-- The directives of a list, between commas. -/
def ofList (text : List Char) : LogSpec :=
  let parts := (text.splitOn ',').map fun part => Text.trim (String.ofList part)
  (parts.filter fun part => !part.isEmpty).foldl add {}

/-- An expression for the messages is added, or complained of. -/
def restrict (spec : LogSpec) (pattern : String) : LogSpec :=
  match Text.Regex.parse pattern with
  | .ok r => { spec with only := some r }
  | .error e =>
    { spec with complaints := spec.complaints ++ [s!"invalid regex filter - {e.text pattern}"] }

/-- The reading of a text. With two slashes none of it counts. -/
def ofText (text : String) : LogSpec :=
  match text.toList.splitOn '/' with
  | [directives] => ofList directives
  | [directives, pattern] => (ofList directives).restrict (String.ofList pattern)
  | _ => { complaints := [unreadable text ++ " (too many '/'s)"] }

/-- The filter that a text asks for, where a level stands in for the directive without a name. -/
def filter (spec : LogSpec) (level : LogLevel) (coloured : Bool) : LogFilter :=
  { directives := LogDirective.insert ⟨none, level.rank⟩ spec.directives
    only := fun message => spec.only.all fun r => r.occursIn message
    coloured }

end LogSpec

end Bringup
