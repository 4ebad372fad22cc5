import Mathlib.Data.List.Nodup
import Bringup.Toml.Reader

/-!
# The names of a document

No two entries of a document have the same name: every change of a table on the way leaves its names as they are, or
adds one that was not there.
-/

namespace Bringup.Toml

set_option autoImplicit false

/-! ## Changes of a table -/

/-- The names of the entries. -/
def names (entries : List Entry) : List String := entries.map fun entry => entry.1.name

theorem names_replace (name : String) (value : Value) (entries : List Entry) :
    names (replace name value entries) = names entries := by
  rw [names, replace, List.map_map]
  refine List.map_congr_left fun entry _ => ?_
  rw [Function.comp_apply]
  split
  · rfl
  · rfl

section

variable {key : Key} {entries entries' : List Entry}

theorem nodup_replace (hentries : (names entries).Nodup) (name : String) (value : Value) :
    (names (replace name value entries)).Nodup := by
  rw [names_replace]
  exact hentries

theorem nodup_concat (hentries : (names entries).Nodup) (hnew : lookup? key.name entries = none) (value : Value) :
    (names (entries ++ [(key, value)])).Nodup := by
  have hnot : key.name ∉ names entries := by
    intro hmem
    obtain ⟨entry, hentry, hname⟩ := List.mem_map.mp hmem
    rw [lookup?, Option.map_eq_none_iff, List.find?_eq_none] at hnew
    exact hnew entry hentry (beq_iff_eq.mpr hname)
  have hadded : names (entries ++ [(key, value)]) = (names entries).concat key.name := by
    rw [names, List.map_append, List.concat_eq_append]
    rfl
  rw [hadded]
  exact hentries.concat hnot

/-- A change of a table keeps the names apart. -/
def Distinguishes (change : TableKind → List Entry → Option (List Entry)) : Prop :=
  ∀ {kind entries entries'}, (names entries).Nodup → change kind entries = some entries' → (names entries').Nodup

variable {change : TableKind → List Entry → Option (List Entry)}

/-- A change further inside does not touch the names. -/
theorem distinguishes_descend (hchange : Distinguishes change) (dotted : Bool) (path : List Key) :
    Distinguishes (descend dotted change path) := by
  intro kind entries entries' hentries h
  cases path with
  | nil => exact hchange hentries h
  | cons key path =>
    rw [descend] at h
    split at h
    · next hnew =>
      obtain ⟨inner, _, ⟨⟩⟩ := Option.bind_eq_some_iff.mp h
      exact nodup_concat hentries hnew _
    · split at h
      · cases h
      · obtain ⟨inner, _, ⟨⟩⟩ := Option.bind_eq_some_iff.mp h
        exact nodup_replace hentries _ _
    · split at h
      · obtain ⟨inner, _, ⟨⟩⟩ := Option.bind_eq_some_iff.mp h
        exact nodup_replace hentries _ _
      · cases h
    · cases h

theorem distinguishes_insert (path : List Key) (key : Key) (value : Value) : Distinguishes (insert path key value) := by
  refine distinguishes_descend (fun {kind entries entries'} hentries h => ?_) true path
  split at h
  · cases h
  · split at h
    · cases h
    · next hnew =>
      cases h
      exact nodup_concat hentries (Option.not_isSome_iff_eq_none.mp hnew) value

theorem nodup_openTable {path : List Key} {span : Span} (hentries : (names entries).Nodup)
    (h : openTable path key span entries = some entries') : (names entries').Nodup := by
  refine distinguishes_descend (fun {kind entries entries'} hentries h => ?_) false path hentries h
  split at h
  · next hnew =>
    cases h
    exact nodup_concat hentries hnew _
  · cases h
    exact nodup_replace hentries _ _
  · cases h

theorem nodup_openItem {path : List Key} {span : Span} (hentries : (names entries).Nodup)
    (h : openItem path key span entries = some entries') : (names entries').Nodup := by
  refine distinguishes_descend (fun {kind entries entries'} hentries h => ?_) false path hentries h
  split at h
  · next hnew =>
    cases h
    exact nodup_concat hentries hnew _
  · cases h
    exact nodup_replace hentries _ _
  · cases h

end

/-! ## Documents -/

/-- What the reader gives has a property. -/
def Gives {α : Type} (P : α → Prop) (x : Scan α) : Prop := ∀ s a s', x.run s = some (a, s') → P a

section

variable {α β : Type} {P : α → Prop} {Q : β → Prop}

theorem gives_pure {a : α} (ha : P a) : Gives P (pure a) := by
  rintro _ _ _ ⟨⟩
  exact ha

theorem gives_refuse : Gives P refuse := nofun

theorem Gives.bind {x : Scan α} {f : α → Scan β} (hx : Gives P x) (hf : ∀ a, P a → Gives Q (f a)) :
    Gives Q (x >>= f) := by
  intro s b s' h
  obtain ⟨⟨a, s₁⟩, hrun, hrest⟩ := Option.bind_eq_some_iff.mp h
  exact hf a (hx s a s₁ hrun) s₁ b s' hrest

theorem gives_bind {x : Scan α} {f : α → Scan β} (hf : ∀ a, Gives Q (f a)) : Gives Q (x >>= f) :=
  Gives.bind (P := fun _ => True) (fun _ _ _ _ => trivial) fun a _ => hf a

end

namespace Draft

/-- No two entries of the draft have the same name. -/
def Distinct (draft : Draft) : Prop := (names draft.entries).Nodup

variable {draft : Draft}

theorem gives_update {entries? : Option (List Entry)} (h : ∀ entries, entries? = some entries → (names entries).Nodup)
    (path : List Key) : Gives Distinct (draft.update entries? path) := by
  cases entries? with
  | some entries => exact gives_pure (h entries rfl)
  | none => exact gives_refuse

theorem gives_header (hdraft : draft.Distinct) : Gives Distinct (header draft) := by
  refine gives_bind fun double => gives_bind fun opened => gives_update (fun entries h => ?_) _
  cases double with
  | false => exact nodup_openTable hdraft h
  | true => exact nodup_openItem hdraft h

theorem gives_assignment (hdraft : draft.Distinct) : Gives Distinct (assignment draft) := by
  refine gives_bind fun key => gives_bind fun _ => gives_bind fun _ => gives_bind fun _ => gives_bind fun item => ?_
  exact gives_update (fun entries h => distinguishes_descend (distinguishes_insert _ _ item) _ _ hdraft h) _

theorem gives_lines (hdraft : draft.Distinct) (fuel : Nat) : Gives Distinct (lines fuel draft) := by
  induction fuel generalizing draft with
  | zero => exact gives_refuse
  | succ fuel ih =>
    refine gives_bind fun _ => gives_bind fun c? => ?_
    cases c? with
    | none => exact gives_pure hdraft
    | some c =>
      dsimp only
      split
      · exact (gives_header hdraft).bind fun draft hdraft => gives_bind fun _ => ih hdraft
      · exact (gives_assignment hdraft).bind fun draft hdraft => gives_bind fun _ => ih hdraft

end Draft

/-- No two entries of a document have the same name. -/
theorem nodup_parse? {text : String} {entries : List Entry} (h : parse? text = some entries) :
    (names entries).Nodup := by
  have hempty : Draft.Distinct {} := List.nodup_nil
  have hdocument : Gives Draft.Distinct document := by
    refine gives_bind fun marked => ?_
    cases marked with
    | true => exact gives_bind fun _ => gives_bind fun _ => Draft.gives_lines hempty _
    | false => exact gives_bind fun _ => Draft.gives_lines hempty _
  obtain ⟨⟨draft, s⟩, hrun, rfl⟩ := Option.map_eq_some_iff.mp h
  exact hdocument _ draft s hrun

end Bringup.Toml
