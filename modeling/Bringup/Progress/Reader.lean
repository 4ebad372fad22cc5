import Bringup.Instant.Reader
import Bringup.Progress
import Bringup.Stage.Reader

/-!
The record of progress read back from its text.
-/

namespace Bringup.Progress

set_option autoImplicit false

open Bringup.Json (Read)

/-- A time. -/
def readInstant : Read Instant :=
  Json.stringAs "an RFC 3339 formatted date and time string" fun s =>
    (Instant.ofText s).mapError fun fault => .other fault.message

/-- The list of completed stages. -/
def readStages : Read (List Stage) := Json.list Stage.read

/-- The fields that have been read. -/
structure Fields where
  target : Option String := none
  completed : Option (List Stage) := none
  updatedAt : Option Instant := none

/-- One member of the object. A name that is not known is passed over. -/
def readMember (fields : Fields) (name : String) : Read Fields :=
  if name == "target" then do
    return { fields with target := ← Json.field name Json.string fields.target }
  else if name == "completed" then do
    return { fields with completed := ← Json.field name readStages fields.completed }
  else if name == "updated_at" then do
    return { fields with updatedAt := ← Json.field name readInstant fields.updatedAt }
  else do
    Json.colon
    Json.skipAny
    return fields

/-- The record as an object. -/
def readObject : Read Progress := do
  let fields ← Json.members readMember ((← get).rest.length + 1) true {}
  let target ← Json.required "target" fields.target
  let completed ← Json.required "completed" fields.completed
  let updatedAt ← Json.required "updated_at" fields.updatedAt
  return ⟨target, completed, updatedAt⟩

/-- An item of the record as a list. -/
def readItem {α : Type} (index : Nat) (item : Read α) : Read α := do
  match ← Json.item? item (index == 0) with
  | some a => return a
  | none => Json.failUnplaced (.wrongLength index "struct BootstrapState with 3 elements")

/-- The record as a list of its fields. -/
def readList : Read Progress := do
  let target ← readItem 0 Json.string
  let completed ← readItem 1 readStages
  let updatedAt ← readItem 2 readInstant
  return ⟨target, completed, updatedAt⟩

/-- A record of progress. -/
def read : Read Progress := Json.record "struct BootstrapState" readObject readList

/-- The record that a text holds. -/
def ofText (text : String) : Except Json.Error Progress := Json.readAll read (Text.Utf8.encode text)

end Bringup.Progress
