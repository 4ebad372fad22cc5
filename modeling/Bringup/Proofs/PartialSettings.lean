import Bringup.Proofs.TableNames
import Bringup.Settings.Decode

/-!
# Settings of which some are given

A document sets some of the fields, in any order and among other entries. What it does not set stays as it is by
default.

* `Settings.Blend`: how the fields of a record are taken over from another one. `Settings.ofTable_mix`: a table takes
  over those that it has an entry for.
* `Settings.Item`: a single field of all settings. `Settings.Part`: a table of the document with its fields.
* `Settings.partial_document_sets_chosen_fields`: what a document is read as that sets some of the fields.
-/

namespace Bringup.Settings

set_option autoImplicit false

open Bringup.Text (Raw)
open Bringup.Toml (Entry Value)

/-! ## Records from tables -/

/-- How a record takes over fields from another one, chosen by their names. -/
structure Blend {α : Type} (fields : List (Field α)) where
  mix : (String → Bool) → α → α → α
  mix_congr : ∀ {chosen other : String → Bool}, (∀ field ∈ fields, chosen field.name = other field.name) →
    ∀ c a, mix chosen c a = mix other c a
  mix_none : ∀ c a, mix (fun _ => false) c a = a
  mix_mix : ∀ chosen other c a, mix chosen c (mix other c a) = mix (fun name => chosen name || other name) c a

def hasEntry (entries : List Entry) (name : String) : Bool := entries.any fun entry => entry.1.name == name

section

variable {α : Type} {fields : List (Field α)} {entries : List Entry} {entry : Entry}

theorem takeEntry_passed (blend : Blend fields) (hname : ∀ field ∈ fields, field.name ≠ entry.1.name)
    (hpass : entry.2.allIntegers Toml.fitsDoubleWord = true) (c a : α) :
    takeEntry fields a entry = .ok (blend.mix (entry.1.name == ·) c a) := by
  have hfind : (fields.find? fun field => field.name == entry.1.name) = none := by
    rw [List.find?_eq_none]
    exact fun field hfield => by simpa using hname field hfield
  have hother : ∀ field ∈ fields, (entry.1.name == field.name) = false := fun field hfield => by
    simpa using (hname field hfield).symm
  have hmix : blend.mix (entry.1.name == ·) c a = a := (blend.mix_congr hother c a).trans (blend.mix_none c a)
  rw [takeEntry, hfind, hmix]
  dsimp only
  rw [passOver, if_pos hpass]
  rfl

theorem foldlM_mix (blend : Blend fields) {c : α}
    (hentries : ∀ entry ∈ entries, ∀ a, takeEntry fields a entry = .ok (blend.mix (entry.1.name == ·) c a)) (a : α) :
    entries.foldlM (takeEntry fields) a = .ok (blend.mix (hasEntry entries) c a) := by
  induction entries generalizing a with
  | nil => exact congrArg Except.ok (blend.mix_none c a).symm
  | cons entry entries ih =>
    rw [List.foldlM_cons, hentries entry List.mem_cons_self]
    change entries.foldlM (takeEntry fields) _ = _
    -- The first entry comes last in the mixture, but it is the same record that all are taken from.
    rw [ih (fun other hother => hentries other (List.mem_cons_of_mem _ hother)), blend.mix_mix]
    refine congrArg Except.ok (blend.mix_congr (fun field _ => ?_) c a)
    rw [hasEntry, hasEntry, List.any_cons, Bool.or_comm]

/-- A table takes over what it has an entry for, in whatever order its entries are. -/
theorem ofTable_mix (blend : Blend fields) {c : α}
    (hentries : ∀ entry ∈ entries, ∀ a, takeEntry fields a entry = .ok (blend.mix (entry.1.name == ·) c a)) (a : α) :
    ofTable fields a entries = .ok (blend.mix (hasEntry entries) c a) := by
  have hperm : (inOrder entries).Perm entries := List.mergeSort_perm entries _
  rw [ofTable, foldlM_mix blend fun entry hentry => hentries entry (hperm.mem_iff.mp hentry)]
  refine congrArg Except.ok (blend.mix_congr (fun field _ => ?_) c a)
  exact hperm.any_eq

theorem ofTable_error (hentry : entry ∈ entries) (hfault : ∀ a, ∃ fault, takeEntry fields a entry = .error fault)
    (a : α) : ∃ fault, ofTable fields a entries = .error fault := by
  rw [ofTable]
  have hmem : entry ∈ inOrder entries := List.mem_mergeSort.mpr hentry
  generalize inOrder entries = sorted at hmem
  induction sorted generalizing a with
  | nil => cases hmem
  | cons first rest ih =>
    rw [List.foldlM_cons]
    cases htake : takeEntry fields a first with
    | error fault => exact ⟨fault, rfl⟩
    | ok b =>
      rcases List.mem_cons.mp hmem with rfl | hmem
      · obtain ⟨fault, hfail⟩ := hfault a
        rw [htake] at hfail
        cases hfail
      · exact ih b hmem

end

theorem ite_ite_same {α : Type} (p q : Bool) (x y : α) :
    (if p then x else if q then x else y) = if p || q then x else y := by
  cases p <;> rfl

/-! ## Items -/

/-- A single field. -/
inductive Item where
  | repository
  | revision
  | checkoutDir
  | syncPolicy
  | rerunPolicy
  | shell
  | environmentScript
  | packagesScript
  | path
  | detect
  | configFile
  | key
deriving DecidableEq, Repr

namespace Item

def all : List Item := [repository, revision, checkoutDir, syncPolicy, rerunPolicy, shell, environmentScript,
  packagesScript, path, detect, configFile, key]

/-- The table that a field stands in, and its name there. -/
def place : Item → String × String
  | repository => ("source", "repository")
  | revision => ("source", "revision")
  | checkoutDir => ("source", "checkout_dir")
  | syncPolicy => ("source", "sync_policy")
  | rerunPolicy => ("source", "rerun_policy")
  | shell => ("provision", "shell")
  | environmentScript => ("provision", "environment_script")
  | packagesScript => ("provision", "packages_script")
  | path => ("disassembler", "path")
  | detect => ("disassembler", "detect")
  | configFile => ("disassembler", "config_file")
  | key => ("disassembler", "key")

def at? (table name : String) : Option Item := all.find? fun i => i.place == (table, name)

theorem mem_all (i : Item) : i ∈ all := by
  cases i <;> decide

theorem at?_place (i : Item) : at? i.place.1 i.place.2 = some i := by
  cases i <;> decide

theorem place_of_at? {table name : String} {i : Item} (h : at? table name = some i) : i.place = (table, name) :=
  eq_of_beq (List.find?_some (p := fun i : Item => i.place == (table, name)) h)

theorem eq_of_place {i j : Item} (h : i.place = j.place) : i = j := by
  have hi := at?_place i
  rw [h, at?_place] at hi
  exact (Option.some.inj hi).symm

end Item

/-- What a document may say of a field. -/
inductive Scalar where
  | text (text : String)
  | path (spelling : Raw)
  | flag (value : Bool)

def Scalar.isIn : Scalar → Value → Bool
  | text expected, .string _ found => found == expected
  | path expected, .string _ found => Raw.ofText found == expected
  | flag expected, .boolean _ found => found == expected
  | _, _ => false

/-- How settings are written, field by field. There is no way to write that a field is not set, nor a path that is not
Unicode. -/
def scalar? (c : Settings) : Item → Option Scalar
  | .repository => some (.text c.source.repository)
  | .revision => c.source.revision.map .text
  | .checkoutDir => some (.text c.source.checkoutDir)
  | .syncPolicy => some (.text c.source.syncPolicy.text)
  | .rerunPolicy => some (.text c.source.rerunPolicy.text)
  | .shell => some (.text c.provision.shell)
  | .environmentScript => some (.text c.provision.environmentScript)
  | .packagesScript => some (.text c.provision.packagesScript)
  | .path => c.disassembler.path.map fun path => .path path.spelling
  | .detect => some (.flag c.disassembler.detect)
  | .configFile => some (.path c.disassembler.configFile.spelling)
  | .key => some (.text c.disassembler.key)

/-- The value is the one that the settings have. -/
def fits (c : Settings) (i : Item) (v : Value) : Bool := (c.scalar? i).any fun scalar => scalar.isIn v

/-- The value is of another type, or is a text that names no policy. -/
def misfit (i : Item) (v : Value) : Bool :=
  match i, v with
  | .syncPolicy, .string _ text => (SyncPolicy.ofText? text).isNone
  | .rerunPolicy, .string _ text => (RerunPolicy.ofText? text).isNone
  | .syncPolicy, _ => false
  | .rerunPolicy, _ => false
  | .detect, v => v.typeName != "boolean"
  | _, v => v.typeName != "string"

section

variable {v : Value}

theorem Scalar.string_of_isIn {expected : String} (h : (Scalar.text expected).isIn v = true) :
    ∃ span, v = .string span expected := by
  cases v with
  | string span found =>
    obtain rfl : found = expected := eq_of_beq h
    exact ⟨span, rfl⟩
  | _ => cases h

theorem Scalar.path_of_isIn {expected : Raw} (h : (Scalar.path expected).isIn v = true) :
    ∃ span text, v = .string span text ∧ Raw.ofText text = expected := by
  cases v with
  | string span found => exact ⟨span, found, rfl, eq_of_beq h⟩
  | _ => cases h

theorem Scalar.boolean_of_isIn {expected : Bool} (h : (Scalar.flag expected).isIn v = true) :
    ∃ span, v = .boolean span expected := by
  cases v with
  | boolean span found =>
    obtain rfl : found = expected := eq_of_beq h
    exact ⟨span, rfl⟩
  | _ => cases h

theorem string_error (h : (v.typeName != "string") = true) : ∃ fault, string v = .error fault := by
  cases v with
  | string span text => cases h
  | _ => exact ⟨_, rfl⟩

theorem path_error (h : (v.typeName != "string") = true) : ∃ fault, path v = .error fault := by
  cases v with
  | string span text => cases h
  | _ => exact ⟨_, rfl⟩

theorem boolean_error (h : (v.typeName != "boolean") = true) : ∃ fault, boolean v = .error fault := by
  cases v with
  | boolean span value => cases h
  | _ => exact ⟨_, rfl⟩

theorem choice_error {α : Type} {known : List String} {ofText? : String → Option α} {text : String}
    (h : (ofText? text).isNone = true) (span : Toml.Span) :
    ∃ fault, choice known ofText? (.string span text) = .error fault := by
  rw [choice, choice.named, Option.isNone_iff_eq_none.mp h]
  exact ⟨_, rfl⟩

theorem set_error {α β : Type} {decoded : Decoded β} (h : ∃ fault, decoded = .error fault) (put : β → α) :
    ∃ fault, (do return put (← decoded) : Decoded α) = .error fault := by
  obtain ⟨fault, rfl⟩ := h
  exact ⟨fault, rfl⟩

theorem set_ok {α β : Type} {decoded : Decoded β} {b : β} (h : decoded = .ok b) (put : β → α) :
    (do return put (← decoded) : Decoded α) = .ok (put b) := by
  rw [h]
  rfl

variable {c : Settings} {i : Item} {text : String}

theorem string_fits (hscalar : c.scalar? i = some (.text text)) (hfits : c.fits i v = true) : string v = .ok text := by
  rw [fits, hscalar] at hfits
  obtain ⟨span, rfl⟩ := Scalar.string_of_isIn hfits
  rfl

theorem path_fits {p : Path} (hscalar : c.scalar? i = some (.path p.spelling)) (hfits : c.fits i v = true) :
    path v = .ok p := by
  rw [fits, hscalar] at hfits
  obtain ⟨span, text, rfl, htext⟩ := Scalar.path_of_isIn hfits
  rw [path, htext]

theorem choice_fits {α : Type} {known : List String} {ofText? : String → Option α} {a : α}
    (hscalar : c.scalar? i = some (.text text)) (hfits : c.fits i v = true) (htext : ofText? text = some a) :
    choice known ofText? v = .ok a := by
  rw [fits, hscalar] at hfits
  obtain ⟨span, rfl⟩ := Scalar.string_of_isIn hfits
  rw [choice, choice.named, htext]

/-- Only a field that is set can be written. -/
theorem exists_of_fits {β : Type} {x : Option β} {write : β → Scalar} (hscalar : c.scalar? i = x.map write)
    (hfits : c.fits i v = true) : ∃ b, x = some b ∧ c.scalar? i = some (write b) := by
  cases x with
  | some b => exact ⟨b, rfl, hscalar⟩
  | none =>
    rw [fits, hscalar] at hfits
    cases hfits

end

/-! ## Parts of a document -/

/-- A table of a document: where its fields are kept and how they are read. -/
structure Part {α : Type} (fields : List (Field α)) extends Blend fields where
  table : String
  get : Settings → α
  covers : ∀ field ∈ fields, (Item.at? table field.name).isSome = true
  complete : ∀ i ∈ Item.all, i.place.1 = table → (fields.find? fun field => field.name == i.place.2).isSome = true
  reads : ∀ field ∈ fields, ∀ {c : Settings} {i : Item} {v : Value}, i.place = (table, field.name) →
    c.fits i v = true → ∀ a, field.set a v = .ok (mix (field.name == ·) (get c) a)
  refuses : ∀ field ∈ fields, ∀ {i : Item} {v : Value}, i.place = (table, field.name) → misfit i v = true →
    ∀ a, ∃ fault, field.set a v = .error fault

def sourcePart : Part sourceFields where
  table := "source"
  get := Settings.source
  mix chosen c a :=
    { repository := if chosen "repository" then c.repository else a.repository
      revision := if chosen "revision" then c.revision else a.revision
      checkoutDir := if chosen "checkout_dir" then c.checkoutDir else a.checkoutDir
      syncPolicy := if chosen "sync_policy" then c.syncPolicy else a.syncPolicy
      rerunPolicy := if chosen "rerun_policy" then c.rerunPolicy else a.rerunPolicy }
  mix_congr h c a := by
    simp only [sourceFields, List.forall_mem_cons] at h
    simp only [h]
  mix_none c a := rfl
  mix_mix chosen other c a := by simp only [ite_ite_same]
  covers := by
    simp only [sourceFields, List.forall_mem_cons]
    decide
  complete := by decide
  reads := by
    simp only [sourceFields, List.forall_mem_cons]
    refine ⟨?_, ?_, ?_, ?_, ?_, fun _ h => absurd h List.not_mem_nil⟩ <;> intro c i v hplace hfits a
    · obtain rfl : i = .repository := Item.eq_of_place hplace
      exact set_ok (string_fits rfl hfits) _
    · obtain rfl : i = .revision := Item.eq_of_place hplace
      obtain ⟨revision, hrevision, hscalar⟩ := exists_of_fits rfl hfits
      change _ = Except.ok { a with revision := c.source.revision }
      rw [hrevision]
      exact set_ok (string_fits hscalar hfits) _
    · obtain rfl : i = .checkoutDir := Item.eq_of_place hplace
      exact set_ok (string_fits rfl hfits) _
    · obtain rfl : i = .syncPolicy := Item.eq_of_place hplace
      exact set_ok (choice_fits rfl hfits (SyncPolicy.ofText?_text _)) _
    · obtain rfl : i = .rerunPolicy := Item.eq_of_place hplace
      exact set_ok (choice_fits rfl hfits (RerunPolicy.ofText?_text _)) _
  refuses := by
    simp only [sourceFields, List.forall_mem_cons]
    refine ⟨?_, ?_, ?_, ?_, ?_, fun _ h => absurd h List.not_mem_nil⟩ <;> intro i v hplace hmisfit a
    · obtain rfl : i = .repository := Item.eq_of_place hplace
      exact set_error (string_error hmisfit) _
    · obtain rfl : i = .revision := Item.eq_of_place hplace
      exact set_error (string_error hmisfit) _
    · obtain rfl : i = .checkoutDir := Item.eq_of_place hplace
      exact set_error (string_error hmisfit) _
    · obtain rfl : i = .syncPolicy := Item.eq_of_place hplace
      cases v with
      | string span text => exact set_error (choice_error hmisfit span) _
      | _ => cases hmisfit
    · obtain rfl : i = .rerunPolicy := Item.eq_of_place hplace
      cases v with
      | string span text => exact set_error (choice_error hmisfit span) _
      | _ => cases hmisfit

def provisionPart : Part provisionFields where
  table := "provision"
  get := Settings.provision
  mix chosen c a :=
    { shell := if chosen "shell" then c.shell else a.shell
      environmentScript := if chosen "environment_script" then c.environmentScript else a.environmentScript
      packagesScript := if chosen "packages_script" then c.packagesScript else a.packagesScript }
  mix_congr h c a := by
    simp only [provisionFields, List.forall_mem_cons] at h
    simp only [h]
  mix_none c a := rfl
  mix_mix chosen other c a := by simp only [ite_ite_same]
  covers := by
    simp only [provisionFields, List.forall_mem_cons]
    decide
  complete := by decide
  reads := by
    simp only [provisionFields, List.forall_mem_cons]
    refine ⟨?_, ?_, ?_, fun _ h => absurd h List.not_mem_nil⟩ <;> intro c i v hplace hfits a
    · obtain rfl : i = .shell := Item.eq_of_place hplace
      exact set_ok (string_fits rfl hfits) _
    · obtain rfl : i = .environmentScript := Item.eq_of_place hplace
      exact set_ok (string_fits rfl hfits) _
    · obtain rfl : i = .packagesScript := Item.eq_of_place hplace
      exact set_ok (string_fits rfl hfits) _
  refuses := by
    simp only [provisionFields, List.forall_mem_cons]
    refine ⟨?_, ?_, ?_, fun _ h => absurd h List.not_mem_nil⟩ <;> intro i v hplace hmisfit a
    · obtain rfl : i = .shell := Item.eq_of_place hplace
      exact set_error (string_error hmisfit) _
    · obtain rfl : i = .environmentScript := Item.eq_of_place hplace
      exact set_error (string_error hmisfit) _
    · obtain rfl : i = .packagesScript := Item.eq_of_place hplace
      exact set_error (string_error hmisfit) _

def disassemblerPart : Part disassemblerFields where
  table := "disassembler"
  get := Settings.disassembler
  mix chosen c a :=
    { path := if chosen "path" then c.path else a.path
      detect := if chosen "detect" then c.detect else a.detect
      configFile := if chosen "config_file" then c.configFile else a.configFile
      key := if chosen "key" then c.key else a.key
      detected := a.detected }
  mix_congr h c a := by
    simp only [disassemblerFields, List.forall_mem_cons] at h
    simp only [h]
  mix_none c a := rfl
  mix_mix chosen other c a := by simp only [ite_ite_same]
  covers := by
    simp only [disassemblerFields, List.forall_mem_cons]
    decide
  complete := by decide
  reads := by
    simp only [disassemblerFields, List.forall_mem_cons]
    refine ⟨?_, ?_, ?_, ?_, fun _ h => absurd h List.not_mem_nil⟩ <;> intro c i v hplace hfits a
    · obtain rfl : i = .path := Item.eq_of_place hplace
      obtain ⟨tool, htool, hscalar⟩ := exists_of_fits rfl hfits
      change _ = Except.ok { a with path := c.disassembler.path }
      rw [htool]
      exact set_ok (path_fits hscalar hfits) _
    · obtain rfl : i = .detect := Item.eq_of_place hplace
      obtain ⟨span, rfl⟩ := Scalar.boolean_of_isIn hfits
      rfl
    · obtain rfl : i = .configFile := Item.eq_of_place hplace
      exact set_ok (path_fits rfl hfits) _
    · obtain rfl : i = .key := Item.eq_of_place hplace
      exact set_ok (string_fits rfl hfits) _
  refuses := by
    simp only [disassemblerFields, List.forall_mem_cons]
    refine ⟨?_, ?_, ?_, ?_, fun _ h => absurd h List.not_mem_nil⟩ <;> intro i v hplace hmisfit a
    · obtain rfl : i = .path := Item.eq_of_place hplace
      exact set_error (path_error hmisfit) _
    · obtain rfl : i = .detect := Item.eq_of_place hplace
      exact set_error (boolean_error hmisfit) _
    · obtain rfl : i = .configFile := Item.eq_of_place hplace
      exact set_error (path_error hmisfit) _
    · obtain rfl : i = .key := Item.eq_of_place hplace
      exact set_error (string_error hmisfit) _

/-! ## Documents -/

def entriesOf : Value → List Entry
  | .table _ _ entries => entries
  | _ => []

def assigns (entries : List Entry) (i : Item) : Bool :=
  entries.any fun entry => entry.1.name == i.place.1 && hasEntry (entriesOf entry.2) i.place.2

/-- An entry of a table sets a field to a value that is accepted, or is of another name. There may be anything then, but
no number that is beyond every type of TOML. -/
def isSetting (accepts : Item → Value → Bool) (table : String) (entry : Entry) : Bool :=
  match Item.at? table entry.1.name with
  | some i => accepts i entry.2
  | none => entry.2.allIntegers Toml.fitsDoubleWord

def tables : List String := ["source", "provision", "disassembler"]

/-- An entry of a document is a table of settings, or is of another name. -/
def isPart (accepts : Item → Value → Bool) (entry : Entry) : Bool :=
  if tables.contains entry.1.name then
    match entry.2 with
    | .table _ _ entries => entries.all (isSetting accepts entry.1.name)
    | _ => false
  else entry.2.allIntegers Toml.fitsDoubleWord

/-- A document that sets exactly some fields, to values that are accepted. -/
structure Sets (accepts : Item → Value → Bool) (chosen : Item → Bool) (entries : List Entry) : Prop where
  parts : ∀ entry ∈ entries, isPart accepts entry = true
  exactly : ∀ i, assigns entries i = chosen i

instance (accepts : Item → Value → Bool) (chosen : Item → Bool) (entries : List Entry) :
    Decidable (Sets accepts chosen entries) :=
  decidable_of_iff ((∀ entry ∈ entries, isPart accepts entry = true) ∧ ∀ i ∈ Item.all, assigns entries i = chosen i)
    ⟨fun h => ⟨h.1, fun i => h.2 i i.mem_all⟩, fun h => ⟨h.parts, fun i _ => h.exactly i⟩⟩

/-- The chosen fields as they are in some settings, and the others as they are by default. -/
def on (c : Settings) (chosen : Item → Bool) : Settings :=
  let d : Settings := {}
  { source :=
      { repository := if chosen .repository then c.source.repository else d.source.repository
        revision := if chosen .revision then c.source.revision else d.source.revision
        checkoutDir := if chosen .checkoutDir then c.source.checkoutDir else d.source.checkoutDir
        syncPolicy := if chosen .syncPolicy then c.source.syncPolicy else d.source.syncPolicy
        rerunPolicy := if chosen .rerunPolicy then c.source.rerunPolicy else d.source.rerunPolicy }
    provision :=
      { shell := if chosen .shell then c.provision.shell else d.provision.shell
        environmentScript :=
          if chosen .environmentScript then c.provision.environmentScript else d.provision.environmentScript
        packagesScript := if chosen .packagesScript then c.provision.packagesScript else d.provision.packagesScript }
    disassembler :=
      { path := if chosen .path then c.disassembler.path else d.disassembler.path
        detect := if chosen .detect then c.disassembler.detect else d.disassembler.detect
        configFile := if chosen .configFile then c.disassembler.configFile else d.disassembler.configFile
        key := if chosen .key then c.disassembler.key else d.disassembler.key
        detected := false } }

def documentBlend : Blend documentFields where
  mix chosen c a :=
    { source := if chosen "source" then c.source else a.source
      provision := if chosen "provision" then c.provision else a.provision
      disassembler := if chosen "disassembler" then c.disassembler else a.disassembler }
  mix_congr h c a := by
    simp only [documentFields, List.forall_mem_cons] at h
    simp only [h]
  mix_none c a := rfl
  mix_mix chosen other c a := by simp only [ite_ite_same]

/-- A table with the chosen ones of its fields. -/
def Part.on {α : Type} {fields : List (Field α)} (part : Part fields) (c : Settings) (chosen : Item → Bool)
    (default : α) : α :=
  part.mix (fun name => (Item.at? part.table name).any chosen) (part.get c) default

theorem on_eq (c : Settings) (chosen : Item → Bool) :
    c.on chosen = ⟨sourcePart.on c chosen {}, provisionPart.on c chosen {}, disassemblerPart.on c chosen {}⟩ := rfl

section

variable {α : Type} {fields : List (Field α)} (part : Part fields) {c : Settings} {chosen : Item → Bool}
  {accepts : Item → Value → Bool} {entries inner : List Entry} {i : Item}

theorem assigns_of_mem (hdistinct : (Toml.names entries).Nodup) {entry : Entry} (hentry : entry ∈ entries)
    (hname : entry.1.name = i.place.1) :
    assigns entries i = hasEntry (entriesOf entry.2) i.place.2 := by
  rw [Bool.eq_iff_iff, assigns, List.any_eq_true]
  constructor
  · rintro ⟨other, hother, hfound⟩
    rw [Bool.and_eq_true, beq_iff_eq] at hfound
    -- There is only one table of the name, or the second one would start again from the defaults.
    obtain rfl : other = entry := List.inj_on_of_nodup_map hdistinct hother hentry (hfound.1.trans hname.symm)
    exact hfound.2
  · intro hfound
    exact ⟨entry, hentry, by rw [hname, beq_self_eq_true, Bool.true_and, hfound]⟩

theorem exists_field (hplace : i.place.1 = part.table) :
    ∃ field ∈ fields, field.name = i.place.2 ∧ (fields.find? fun field => field.name == i.place.2) = some field := by
  obtain ⟨field, hfield⟩ := Option.isSome_iff_exists.mp (part.complete i i.mem_all hplace)
  have hname := List.find?_some (p := fun field : Field α => field.name == i.place.2) hfield
  exact ⟨field, List.mem_of_find?_eq_some hfield, eq_of_beq hname, hfield⟩

theorem exists_item {field : Field α} (hfield : field ∈ fields) :
    ∃ i, Item.at? part.table field.name = some i ∧ i.place = (part.table, field.name) := by
  obtain ⟨i, hi⟩ := Option.isSome_iff_exists.mp (part.covers field hfield)
  exact ⟨i, hi, Item.place_of_at? hi⟩

theorem takeEntry_setting {entry : Entry} (hsetting : isSetting c.fits part.table entry = true) (a : α) :
    takeEntry fields a entry = .ok (part.mix (entry.1.name == ·) (part.get c) a) := by
  rw [isSetting] at hsetting
  cases hitem : Item.at? part.table entry.1.name with
  | some i =>
    rw [hitem] at hsetting
    have hplace := Item.place_of_at? hitem
    obtain ⟨field, hfield, hname, hfind⟩ := exists_field part (congrArg Prod.fst hplace)
    rw [hplace] at hname hfind
    rw [takeEntry, hfind, ← show field.name = entry.1.name from hname]
    exact part.reads field hfield (hname ▸ hplace) hsetting a
  | none =>
    rw [hitem] at hsetting
    refine takeEntry_passed part.toBlend (fun field hfield hname => ?_) hsetting _ a
    have hcovers := part.covers field hfield
    rw [hname, hitem] at hcovers
    cases hcovers

/-- A table of the document is read as the chosen ones of its fields. -/
theorem ofTable_part (hdistinct : (Toml.names entries).Nodup) (hsets : Sets accepts chosen entries) {entry : Entry}
    (hentry : entry ∈ entries) (hname : entry.1.name = part.table)
    (hinner : ∀ setting ∈ entriesOf entry.2, isSetting c.fits part.table setting = true) (default : α) :
    ofTable fields default (entriesOf entry.2) = .ok (part.on c chosen default) := by
  rw [ofTable_mix part.toBlend (fun setting hsetting => takeEntry_setting part (hinner setting hsetting))]
  refine congrArg Except.ok (part.mix_congr (fun field hfield => ?_) _ _)
  obtain ⟨i, hitem, hplace⟩ := exists_item part hfield
  have hassigns := assigns_of_mem hdistinct hentry (hname.trans (congrArg Prod.fst hplace).symm)
  rw [hsets.exactly, hplace] at hassigns
  rw [hitem]
  exact hassigns.symm

/-- Nothing is chosen from a table that is not there. -/
theorem ite_on (hsets : Sets accepts chosen entries) (default : α) :
    (if hasEntry entries part.table then part.on c chosen default else default) = part.on c chosen default := by
  split
  · rfl
  · next habsent =>
    have hnone : ∀ field ∈ fields, (Item.at? part.table field.name).any chosen = false := by
      intro field hfield
      obtain ⟨i, hitem, hplace⟩ := exists_item part hfield
      rw [hitem, Option.any_some, ← hsets.exactly, assigns, hplace, Bool.eq_false_iff]
      intro hassigns
      obtain ⟨entry, hentry, hfound⟩ := List.any_eq_true.mp hassigns
      rw [Bool.and_eq_true] at hfound
      exact habsent (List.any_eq_true.mpr ⟨entry, hentry, hfound.1⟩)
    exact ((part.mix_congr hnone _ _).trans (part.mix_none _ _)).symm

theorem ofTable_refused (hplace : i.place.1 = part.table) (haccepts : ∀ v, accepts i v = true → misfit i v = true)
    (hinner : ∀ setting ∈ inner, isSetting accepts part.table setting = true)
    (hassigned : hasEntry inner i.place.2 = true) (default : α) :
    ∃ fault, ofTable fields default inner = .error fault := by
  obtain ⟨setting, hsetting, hname⟩ := List.any_eq_true.mp hassigned
  have hname : setting.1.name = i.place.2 := eq_of_beq hname
  obtain ⟨field, hfield, hfieldName, hfind⟩ := exists_field part hplace
  have haccepted := hinner setting hsetting
  rw [isSetting, hname, ← hplace, Item.at?_place] at haccepted
  refine ofTable_error hsetting (fun a => ?_) default
  rw [takeEntry, hname, hfind]
  exact part.refuses field hfield (by rw [hfieldName, ← hplace]) (haccepts _ haccepted) a

theorem exists_table {entry : Entry} (hpart : isPart accepts entry = true) (hknown : entry.1.name ∈ tables) :
    (∃ span kind, entry.2 = .table span kind (entriesOf entry.2)) ∧
      ∀ setting ∈ entriesOf entry.2, isSetting accepts entry.1.name setting = true := by
  rw [isPart, if_pos (List.contains_iff_mem.mpr hknown)] at hpart
  cases hvalue : entry.2 with
  | table span kind inner =>
    rw [hvalue] at hpart
    exact ⟨⟨span, kind, rfl⟩, List.all_eq_true.mp hpart⟩
  | _ =>
    rw [hvalue] at hpart
    cases hpart

theorem takeEntry_part (hdistinct : (Toml.names entries).Nodup) (hsets : Sets c.fits chosen entries) {entry : Entry}
    (hentry : entry ∈ entries) (a : Settings) :
    takeEntry documentFields a entry = .ok (documentBlend.mix (entry.1.name == ·) (c.on chosen) a) := by
  have hpart := hsets.parts entry hentry
  by_cases hknown : entry.1.name ∈ tables
  · obtain ⟨⟨span, kind, htable⟩, hinner⟩ := exists_table hpart hknown
    rw [takeEntry, htable, on_eq]
    simp only [tables, List.mem_cons, List.not_mem_nil, or_false] at hknown
    rcases hknown with hname | hname | hname
    · rw [hname] at hinner ⊢
      exact set_ok (ofTable_part sourcePart hdistinct hsets hentry hname hinner {}) _
    · rw [hname] at hinner ⊢
      exact set_ok (ofTable_part provisionPart hdistinct hsets hentry hname hinner {}) _
    · rw [hname] at hinner ⊢
      exact set_ok (ofTable_part disassemblerPart hdistinct hsets hentry hname hinner {}) _
  · rw [isPart, if_neg (by simpa using hknown)] at hpart
    refine takeEntry_passed documentBlend (fun field hfield hname => hknown ?_) hpart _ a
    rw [← hname]
    exact List.mem_map_of_mem (f := Field.name) hfield

theorem ofEntries_sets (hdistinct : (Toml.names entries).Nodup) (hsets : Sets c.fits chosen entries) :
    ofEntries entries = .ok (c.on chosen) := by
  rw [ofEntries, ofTable_mix documentBlend (fun entry hentry => takeEntry_part hdistinct hsets hentry), on_eq]
  have hsource := ite_on sourcePart (c := c) hsets {}
  have hprovision := ite_on provisionPart (c := c) hsets {}
  have hdisassembler := ite_on disassemblerPart (c := c) hsets {}
  exact congrArg Except.ok (congr (congr (congrArg Settings.mk hsource) hprovision) hdisassembler)

theorem Item.place_mem (i : Item) : i.place.1 ∈ tables := by
  cases i <;> decide

theorem ofEntries_refused (hsets : Sets accepts chosen entries) (hi : chosen i = true)
    (haccepts : ∀ v, accepts i v = true → misfit i v = true) : ∃ fault, ofEntries entries = .error fault := by
  rw [← hsets.exactly, assigns, List.any_eq_true] at hi
  obtain ⟨entry, hentry, hfound⟩ := hi
  rw [Bool.and_eq_true, beq_iff_eq] at hfound
  obtain ⟨hname, hassigned⟩ := hfound
  have hknown : entry.1.name ∈ tables := hname ▸ i.place_mem
  obtain ⟨⟨span, kind, htable⟩, hinner⟩ := exists_table (hsets.parts entry hentry) hknown
  rw [ofEntries]
  refine ofTable_error hentry (fun a => ?_) _
  rw [takeEntry, htable]
  simp only [tables, List.mem_cons, List.not_mem_nil, or_false] at hknown
  rcases hknown with htab | htab | htab
  · rw [htab] at hinner hname ⊢
    exact set_error (ofTable_refused sourcePart hname.symm haccepts hinner hassigned {}) _
  · rw [htab] at hinner hname ⊢
    exact set_error (ofTable_refused provisionPart hname.symm haccepts hinner hassigned {}) _
  · rw [htab] at hinner hname ⊢
    exact set_error (ofTable_refused disassemblerPart hname.symm haccepts hinner hassigned {}) _

end

/-- A document that sets some of the fields as they are in some settings is read as these, with the others as they are
by default. One that sets a field of them to a value of another type, or a policy to a text that names none, is
refused. -/
theorem partial_document_sets_chosen_fields (c : Settings) (chosen : Item → Bool) {text : String} {entries : List Entry}
    (hparse : Toml.parse? text = some entries) :
    (Sets c.fits chosen entries → ofText text = .ok (c.on chosen)) ∧
      ∀ i, chosen i = true → Sets (fun j v => if j = i then misfit i v else c.fits j v) chosen entries →
        ∃ reason, ofText text = .error reason := by
  rw [ofText, hparse]
  refine ⟨fun hsets => ?_, fun i hi hsets => ?_⟩
  · dsimp only
    rw [ofEntries_sets (Toml.nodup_parse? hparse) hsets]
    rfl
  · obtain ⟨fault, hfault⟩ := ofEntries_refused hsets hi fun v hv => by rwa [if_pos rfl] at hv
    dsimp only
    rw [hfault]
    exact ⟨_, rfl⟩

/-- Settings of which a document gives three. -/
def latest : Settings where
  source := { revision := some "v1", syncPolicy := .latest }
  disassembler := { key := "A2L" }

/-- The document, with some policy. -/
def documentWith (policy : String) : String :=
  "detected = true\n[disassembler]\nkey = 'A2L'\ndetected = true\n[source]\nsync_policy = '" ++ policy ++
    "'\nrevision = 'v1'\nextra = [1, 2.5]\n"

def given (i : Item) : Bool := [.revision, .syncPolicy, .key].contains i

theorem partial_document_sets_three_fields :
    (∃ entries, Toml.parse? (documentWith "latest") = some entries ∧ Sets latest.fits given entries) ∧
      ofText (documentWith "latest") = .ok (latest.on given) ∧
      (∃ entries, Toml.parse? (documentWith "newest") = some entries ∧
        Sets (fun j v => if j = .syncPolicy then misfit .syncPolicy v else latest.fits j v) given entries) ∧
      ∃ reason, ofText (documentWith "newest") = .error reason := by
  have hlatest : ((Toml.parse? (documentWith "latest")).any fun entries =>
      decide (Sets latest.fits given entries)) = true := by decide +kernel
  have hnewest : ((Toml.parse? (documentWith "newest")).any fun entries => decide (Sets
      (fun j v => if j = .syncPolicy then misfit .syncPolicy v else latest.fits j v) given entries)) = true := by
    decide +kernel
  obtain ⟨entries, hparse, hsets⟩ := (Option.any_eq_true _ _).mp hlatest
  obtain ⟨other, hother, hmisset⟩ := (Option.any_eq_true _ _).mp hnewest
  have hsets := of_decide_eq_true hsets
  have hmisset := of_decide_eq_true hmisset
  have hread := (partial_document_sets_chosen_fields latest given hparse).1 hsets
  have hrefused := (partial_document_sets_chosen_fields latest given hother).2 .syncPolicy (by decide) hmisset
  exact ⟨⟨entries, hparse, hsets⟩, hread, ⟨other, hother, hmisset⟩, hrefused⟩

end Bringup.Settings
