import Bringup.Settings
import Bringup.Toml.Reader

/-!
Settings from a TOML document.

A record is a table whose known entries replace the defaults, entries in the order of their names. It may
also be an array with the fields in their own order. Entries that are not known are passed over, if they
can be read at all.

* `Settings.ofEntries`: the settings in the entries of a document.
* `Settings.ofText`: the settings in a text, or the wording of what is wrong with it.
-/

namespace Bringup.Settings

set_option autoImplicit false

open Bringup.Toml (Entry Fault Value)

/-- A decoded value, or the fault of the first value that does not fit. -/
abbrev Decoded := Except Fault

/-- A value of the wrong type. -/
def wrongType {α : Type} (expected : String) (v : Value) : Decoded α :=
  .error ⟨.wrongType v.found expected, v.span⟩

/-- A string. -/
def string (v : Value) : Decoded String :=
  match v with
  | .string _ text => .ok text
  | v => wrongType "a string" v

/-- A boolean. -/
def boolean (v : Value) : Decoded Bool :=
  match v with
  | .boolean _ value => .ok value
  | v => wrongType "a boolean" v

/-- A path. -/
def path (v : Value) : Decoded Path :=
  match v with
  | .string _ text => .ok ⟨text⟩
  | v => wrongType "path string" v

/-- A choice by name: a string, or a table with the name as its key and nothing in it. -/
def choice {α : Type} (known : List String) (ofText? : String → Option α) (v : Value) : Decoded α :=
  match v with
  | .string span name => named span name
  | .table span _ [] => .error ⟨.other "wanted exactly 1 element, found 0 elements", span⟩
  | .table _ _ [(key, content)] => do
    let a ← named key.span key.name
    nothing content
    return a
  | .table span _ _ => .error ⟨.other "wanted exactly 1 element, more than 1 element", span⟩
  | v => .error ⟨.other "wanted string or table", v.span⟩
where
  /-- The choice with a name. -/
  named (span : Toml.Span) (name : String) : Decoded α :=
    match ofText? name with
    | some a => .ok a
    | none => .error ⟨.unknownVariant name known, span⟩
  /-- A table or an array with nothing in it. -/
  nothing (v : Value) : Decoded Unit :=
    match v with
    | .array _ _ [] => .ok ()
    | .array span _ _ => .error ⟨.other "expected empty array", span⟩
    | .table _ _ [] => .ok ()
    | .table span _ _ => .error ⟨.other "expected empty table", span⟩
    | v => .error ⟨.other s!"expected table, found {v.typeName}", v.span⟩

/-- A field: its name, and how a value is put in its place. -/
structure Field (α : Type) where
  name : String
  set : α → Value → Decoded α

/-- A value that nothing is asked of. Its integers are read with up to 128 bits. -/
def passOver (v : Value) : Decoded Unit :=
  if v.allIntegers Toml.fitsDoubleWord then .ok ()
  else .error ⟨.other "number overflowed", v.span⟩

/-- One entry is taken in, if its name is known. -/
def takeEntry {α : Type} (fields : List (Field α)) (a : α) (entry : Entry) : Decoded α :=
  match fields.find? fun f => f.name == entry.1.name with
  | some field => field.set a entry.2
  | none => do passOver entry.2; return a

/-- The entries in the order of their names. -/
def inOrder (entries : List Entry) : List Entry :=
  entries.mergeSort fun a b => a.1.name ≤ b.1.name

/-- A record from the entries of a table. -/
def ofTable {α : Type} (fields : List (Field α)) (default : α) (entries : List Entry) : Decoded α :=
  (inOrder entries).foldlM (takeEntry fields) default

/-- A record from its fields in order. Those at the end may be left out, and more are passed over. -/
def ofArray {α : Type} (fields : List (Field α)) (default : α) (items : List Value) : Decoded α :=
  (fields.zip items).foldlM (fun a (field, item) => field.set a item) default

/-- A record. A date holds no entry of any name. -/
def record {α : Type} (expected : String) (fields : List (Field α)) (default : α) (v : Value) :
    Decoded α :=
  match v with
  | .table _ _ entries => ofTable fields default entries
  | .array _ _ items => ofArray fields default items
  | .time _ => .ok default
  | v => wrongType expected v

/-- The fields of the source. -/
def sourceFields : List (Field SourceSettings) := [
  ⟨"repository", fun s v => do return { s with repository := ← string v }⟩,
  ⟨"revision", fun s v => do return { s with revision := some (← string v) }⟩,
  ⟨"checkout_dir", fun s v => do return { s with checkoutDir := ← string v }⟩,
  ⟨"sync_policy", fun s v => do
    return { s with
      syncPolicy := ← choice (SyncPolicy.all.map SyncPolicy.text) SyncPolicy.ofText? v }⟩,
  ⟨"rerun_policy", fun s v => do
    return { s with
      rerunPolicy := ← choice (RerunPolicy.all.map RerunPolicy.text) RerunPolicy.ofText? v }⟩]

/-- The fields of the setup scripts. -/
def provisionFields : List (Field ProvisionSettings) := [
  ⟨"shell", fun s v => do return { s with shell := ← string v }⟩,
  ⟨"environment_script", fun s v => do return { s with environmentScript := ← string v }⟩,
  ⟨"packages_script", fun s v => do return { s with packagesScript := ← string v }⟩]

/-- The fields of the disassembler. Whether its path was found on the host is not among them. -/
def disassemblerFields : List (Field DisassemblerSettings) := [
  ⟨"path", fun s v => do return { s with path := some (← path v) }⟩,
  ⟨"detect", fun s v => do return { s with detect := ← boolean v }⟩,
  ⟨"config_file", fun s v => do return { s with configFile := ← path v }⟩,
  ⟨"key", fun s v => do return { s with key := ← string v }⟩]

/-- The fields of a document. -/
def documentFields : List (Field Settings) := [
  ⟨"source", fun s v => do
    return { s with source := ← record "struct SourceConfig" sourceFields {} v }⟩,
  ⟨"provision", fun s v => do
    return { s with provision := ← record "struct ProvisionConfig" provisionFields {} v }⟩,
  ⟨"disassembler", fun s v => do
    return { s with disassembler := ← record "struct DisassemblerConfig" disassemblerFields {} v }⟩]

/-- The settings in the entries of a document. -/
def ofEntries (entries : List Entry) : Decoded Settings := ofTable documentFields {} entries

/-- The wording for a text that is no TOML. -/
def notToml : String := "<toml syntax error>"

/-- The wording of a fault. In a text with a number that no type of TOML holds, that number is to
blame. -/
def explain (text : String) (entries : List Entry) (fault : Fault) : String :=
  if entries.all fun e => e.2.allIntegers Toml.fitsWord then fault.report text else notToml

/-- The settings in a text, or the wording of what is wrong with it. -/
def ofText (text : String) : Except String Settings :=
  match Toml.parse? text with
  | none => .error notToml
  | some entries => (ofEntries entries).mapError (explain text entries)

end Bringup.Settings
