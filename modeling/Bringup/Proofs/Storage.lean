import Bringup.Proofs.History
import Bringup.Proofs.InstantText

/-!
# What storage keeps

A record comes back from its text and from its file as it was. For that its time has to be one of the
calendar, and every time is that a reader or the clock has given.

* `Json.Yields`: whatever a reader reads is of a kind.
* `Instant.Arises`: a time that was read from a text or given by the clock.
* `record_survives_storage`: the main result.
-/

namespace Bringup

set_option autoImplicit false

open Bringup.Text Utf8

/-! ## What a reader can read -/

namespace Json

variable {α β : Type} {P : α → Prop} {Q : β → Prop}

/-- Whatever the reader reads is of this kind. -/
def Yields (P : α → Prop) (R : Read α) : Prop := ∀ s a s', reading R s = (.ok a, s') → P a

theorem Fails.yields {R : Read α} (h : Fails R) : Yields P R :=
  fun s a s' hread => absurd hread (h s a s')

theorem yields_pure {a : α} (h : P a) : Yields P (pure a) := by
  intro s b s' hread
  cases hread
  exact h

theorem Yields.bind {R : Read α} {f : α → Read β} (hR : Yields P R) (hf : ∀ a, P a → Yields Q (f a)) :
    Yields Q (R >>= f) := by
  intro s b s' h
  obtain ⟨a, s₁, hread, h⟩ := bind_ok h
  exact hf a (hR s a s₁ hread) s₁ b s' h

/-- What is read first may not matter. -/
theorem Yields.after (R : Read α) {f : α → Read β} (hf : ∀ a, Yields Q (f a)) : Yields Q (R >>= f) :=
  Yields.bind (P := fun _ => True) (fun _ _ _ _ => trivial) fun a _ => hf a

theorem Yields.ite {p : Prop} [Decidable p] {R T : Read α} (hR : Yields P R) (hT : Yields P T) :
    Yields P (if p then R else T) := by
  split
  · exact hR
  · exact hT

theorem Yields.placed {R : Read α} (h : Yields P R) : Yields P (placed R) :=
  fun s a s' hread => h s a s' (placed_ok.mp hread)

theorem Yields.bracketed {body : Read α} (h : Yields P body) (close : Read Unit) :
    Yields P (Json.placed (closedBy (nested body) close)) := by
  refine Yields.placed fun s a s' hread => ?_
  obtain ⟨s₁, hnested, _⟩ := closedBy_ok hread
  obtain ⟨_, s₂, hbody, _⟩ := nested_ok hnested
  exact h _ _ _ hbody

theorem yields_stringAs (expected : String) {convert : String → Except Mismatch α}
    (h : ∀ s a, convert s = .ok a → P a) : Yields P (stringAs expected convert) := by
  refine .after _ fun b => .ite (.placed (.after _ fun _ => .after _ fun s => ?_)) (fails_wrongType _ _).yields
  split
  · next a ha => exact yields_pure (h s a ha)
  · exact (fails_failUnplaced _).yields

theorem yields_members {step : α → String → Read α} (hstep : ∀ a name, P a → Yields P (step a name))
    (fuel : Nat) (first : Bool) {a : α} (ha : P a) : Yields P (members step fuel first a) := by
  induction fuel generalizing first a with
  | zero => exact (fails_failAhead _).yields
  | succ fuel ih =>
    refine .after _ fun b => ?_
    cases b with
    | none => exact yields_pure ha
    | some b => exact .after _ fun name => (hstep a name ha).bind fun a ha => ih false ha

theorem yields_field (name : String) {value : Read α} (hvalue : Yields P value) (given : Option α) :
    Yields (fun found => ∀ a, found = some a → P a) (field name value given) := by
  cases given with
  | some _ => exact (fails_failUnplaced _).yields
  | none =>
    refine .after _ fun _ => hvalue.bind fun a ha => yields_pure fun b hb => ?_
    cases hb
    exact ha

theorem yields_required (name : String) {given : Option α} (h : ∀ a, given = some a → P a) :
    Yields P (required name given) := by
  cases given with
  | none => exact (fails_failUnplaced _).yields
  | some a => exact yields_pure (h a rfl)

theorem yields_item? {item : Read α} (hitem : Yields P item) (first : Bool) :
    Yields (fun found => ∀ a, found = some a → P a) (item? item first) := by
  refine .after _ fun b => ?_
  cases b with
  | none => exact yields_pure nofun
  | some _ =>
    refine hitem.bind fun a ha => yields_pure fun b hb => ?_
    cases hb
    exact ha

theorem yields_record (expected : String) {ofObject ofList : Read α} (hobject : Yields P ofObject)
    (hlist : Yields P ofList) : Yields P (record expected ofObject ofList) := by
  refine .after _ fun b => .ite ?_ (.ite ?_ (fails_wrongType _ _).yields)
  · exact .bracketed (.after _ fun _ => hlist) _
  · exact .bracketed (.after _ fun _ => hobject) _

theorem Yields.readAll {R : Read α} (h : Yields P R) {text : Bytes} {a : α}
    (hread : readAll R text = .ok a) : P a := by
  rw [Json.readAll] at hread
  generalize hout : StateT.run _ _ = out at hread
  obtain ⟨result, s⟩ := out
  cases result with
  | error fault => cases hread
  | ok b =>
    cases hread
    obtain ⟨c, s₁, hfirst, hrest⟩ := bind_ok hout
    obtain ⟨next, s₂, _, hrest⟩ := bind_ok hrest
    cases next with
    | none =>
      cases hrest
      exact h _ _ _ hfirst
    | some _ => exact absurd hrest (fails_failAhead _ _ _ _)

end Json

/-! ## Times -/

/-- A time that the clock can give. -/
def Instant.OfClock (t : Instant) : Prop :=
  ∃ m : Moment, m.nanos < 1000000000 ∧ (Instant.ofMoment m).year ≤ Instant.lastYear ∧ t = Instant.ofMoment m

/-- A time that a reader has taken from a text or the clock has given. -/
def Instant.Arises (t : Instant) : Prop := (∃ text, Instant.ofText text = .ok t) ∨ t.OfClock

theorem Instant.Arises.ofText_text {t : Instant} (h : t.Arises) : Instant.ofText t.text = .ok t := by
  obtain ⟨text, hread⟩ | ⟨m, hnanos, hyear, rfl⟩ := h
  · exact Instant.ofText_text (valid_of_ofText hread)
  · exact Instant.ofText_text (valid_ofMoment hnanos hyear)

/-! ## Records -/

namespace Progress

open Json

theorem yields_readInstant : Yields Instant.Arises readInstant := by
  refine yields_stringAs _ fun s t hread => .inl ⟨s, ?_⟩
  cases htime : Instant.ofText s with
  | ok u =>
    rw [htime] at hread
    cases hread
    rfl
  | error fault =>
    rw [htime] at hread
    cases hread

theorem yields_readMember (fields : Fields) (name : String)
    (h : ∀ t, fields.updatedAt = some t → t.Arises) :
    Yields (fun found : Fields => ∀ t, found.updatedAt = some t → t.Arises) (readMember fields name) := by
  refine .ite ?_ (.ite ?_ (.ite ?_ ?_))
  · exact .after _ fun _ => yields_pure h
  · exact .after _ fun _ => yields_pure h
  · exact (yields_field name yields_readInstant fields.updatedAt).bind fun _ hgiven => yields_pure hgiven
  · exact .after _ fun _ => .after _ fun _ => yields_pure h

theorem yields_readObject : Yields (fun p : Progress => p.updatedAt.Arises) readObject := by
  have hnone : ∀ t, ({} : Fields).updatedAt = some t → t.Arises := nofun
  refine .after _ fun s => (yields_members yields_readMember _ true hnone).bind fun fields hfields => ?_
  refine .after _ fun _ => .after _ fun _ => (yields_required _ hfields).bind fun t ht => ?_
  exact yields_pure ht

theorem yields_readItem {α : Type} {P : α → Prop} (index : Nat) {item : Read α} (hitem : Yields P item) :
    Yields P (readItem index item) := by
  refine (yields_item? hitem _).bind fun found hfound => ?_
  cases found with
  | some a => exact yields_pure (hfound a rfl)
  | none => exact (fails_failUnplaced _).yields

theorem yields_read : Yields (fun p : Progress => p.updatedAt.Arises) read := by
  refine yields_record _ yields_readObject (.after _ fun _ => .after _ fun _ => ?_)
  exact (yields_readItem 2 yields_readInstant).bind fun t ht => yields_pure ht

theorem arises_of_ofText {text : String} {p : Progress} (h : ofText text = .ok p) : p.updatedAt.Arises :=
  yields_read.readAll h

theorem ofText_text_of_arises {p : Progress} (h : p.updatedAt.Arises) : ofText p.text = .ok p := by
  have hread := ofText_text p
  rw [h.ofText_text] at hread
  cases hout : ofText p.text with
  | error e =>
    rw [hout] at hread
    cases hread
  | ok q =>
    rw [hout] at hread
    cases hread
    rfl

/-- A record is as it was when its file is read again. -/
theorem record_save {checkout : Path} {p : Progress} {h h' : Host} (harises : p.updatedAt.Arises)
    (hgit : h.files.present h.cwd (directory checkout) = true)
    (hsave : (save checkout p).run h = (.ok (), h')) : h'.record checkout = some p := by
  rw [Host.record, recordBytes_save hsave, if_pos hgit, recordOf_written, harises.ofText_text]
  rfl

end Progress

/-- A record survives storage. It is read from its text as it was, whatever its target and its stages are.
After it has been stored in a checkout that has a directory of source control, it is loaded from there.
What was read from any text is read again from its own text, and has the same text then. -/
theorem record_survives_storage :
    (∀ p : Progress, p.updatedAt.Arises → Progress.ofText p.text = .ok p ∧
      ∀ (checkout : Path) (h h' : Host), h.files.present h.cwd (Progress.directory checkout) = true →
        (Progress.save checkout p).run h = (.ok (), h') →
          ((Progress.load checkout).run h').1 = some p) ∧
    ∀ (text : String) (p : Progress), Progress.ofText text = .ok p →
      (Progress.ofText p.text).map (fun again => (again, again.text)) = .ok (p, p.text) := by
  refine ⟨fun p harises => ⟨Progress.ofText_text_of_arises harises, ?_⟩, fun text p hread => ?_⟩
  · intro checkout h h' hgit hsave
    obtain ⟨hloaded, _⟩ := Progress.load_eq (Prod.eta ((Progress.load checkout).run h')).symm
    exact hloaded.trans (Progress.record_save harises hgit hsave)
  · rw [Progress.ofText_text_of_arises (Progress.arises_of_ofText hread)]
    rfl

/-- A record with much to escape, stages more than once and a leap second after the year 9999. -/
def oddRecord : Progress where
  target := "v1 \"é\" \\ \n\x07\x7f 𝔘"
  completed := [.cloned, .failed .revision, .cloned, .done, .failed .revision]
  updatedAt := ⟨12345, 2, 28, 23, 59, 60, 123456789⟩

theorem oddRecord_survives_storage :
    oddRecord.updatedAt.Arises ∧ Progress.ofText oddRecord.text = .ok oddRecord ∧
      emptyCheckout.files.present emptyCheckout.cwd (Progress.directory ⟨"angr"⟩) = true ∧
      ∃ h', (Progress.save ⟨"angr"⟩ oddRecord).run emptyCheckout = (.ok (), h') ∧
        ((Progress.load ⟨"angr"⟩).run h').1 = some oddRecord ∧
        (Progress.ofText oddRecord.text).map (fun again => (again, again.text))
          = .ok (oddRecord, oddRecord.text) := by
  -- The time is read from a text with an offset, on the day after.
  have harises : oddRecord.updatedAt.Arises :=
    .inl ⟨"+12345-03-01t00:29:60.1234567891+00:30", by decide +kernel⟩
  obtain ⟨⟨place, hplace⟩, _⟩ := recordHolds_emptyCheckout
  obtain ⟨hread, hload⟩ := record_survives_storage.1 oddRecord harises
  refine ⟨harises, hread, hplace.present, _, hplace.save oddRecord, ?_, record_survives_storage.2 _ _ hread⟩
  exact hload _ _ _ hplace.present (hplace.save oddRecord)

end Bringup
