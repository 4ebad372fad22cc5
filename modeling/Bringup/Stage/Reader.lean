import Bringup.Json.Decode
import Bringup.Stage

/-!
Stages read from JSON.
-/

namespace Bringup.Stage

set_option autoImplicit false

open Bringup.Json (Read)

/-- The spellings of the kinds of failure. -/
def kindNames : List String := FailureKind.all.map FailureKind.text

/-- The spellings of the stages. -/
def names : List String := plain.map text ++ ["failed"]

/-- A kind of failure. -/
def readKind : Read FailureKind :=
  Json.variant kindNames ofName fun name => do
    let kind ← ofName name
    Json.unit
    return kind
where
  /-- The kind with a spelling that was accepted. -/
  ofName (name : String) : Read FailureKind :=
    match FailureKind.ofText? name with
    | some kind => return kind
    | none => Json.failUnplaced (.unknownVariant name kindNames)

/-- A stage that stands for itself, by its spelling. -/
def plainOfText? (name : String) : Option Stage := plain.find? fun stage => stage.text == name

/-- A stage. -/
def read : Read Stage :=
  Json.variant names
    (fun name =>
      match plainOfText? name with
      | some stage => return stage
      | none => Json.failUnplaced (.wrongType .unitVariant "newtype variant"))
    fun name =>
      match plainOfText? name with
      | some stage => do
        Json.unit
        return stage
      | none => return failed (← readKind)

/-- A stage in a text of its own. -/
def ofText (text : String) : Except Json.Error Stage := Json.readAll read (Text.Utf8.encode text)

end Bringup.Stage
