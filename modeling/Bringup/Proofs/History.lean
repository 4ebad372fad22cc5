import Bringup.Proofs.Course
import Bringup.Proofs.StoredRecord

/-!
# Runs in one checkout

* `recordMoves`: what an exchange may do to the host, as far as the record in the checkout is concerned.
* `progressMoves`: the same for the progress that the record holds. A torn record holds none, so this is
  all that a later run can see of an interrupted one.
* `History`: runs one after another, each of which may succeed, fail or be broken off at any point.
-/

namespace Bringup

set_option autoImplicit false

open Bringup.Text Utf8
open Procedure Dialogue

/-! ## The record in the surroundings of a run -/

section

variable (checkout : Path)

/-- The record is as it was or gone. -/
def Spared (h h' : Host) : Prop :=
  h'.recordBytes checkout = h.recordBytes checkout ∨ h'.recordBytes checkout = none

/-- Storing was cut short: any beginning of the text may have been written. -/
def CutShort (progress : Progress) (h h' : Host) : Prop :=
  Spared checkout h h' ∨ ∃ part, part <+: encode progress.text ∧ h'.recordBytes checkout = some part

/-- What an exchange may do to a host. Only storing writes the record, and a new checkout has none. -/
def recordMoves : Surroundings Host := fun h e h' =>
  match e with
  | ⟨.load place, some loaded⟩ => (Progress.load place).run h = (loaded, h')
  | ⟨.store place progress, some (.ok ())⟩ => (Progress.save place progress).run h = (.ok (), h')
  | ⟨.store _ progress, _⟩ => CutShort checkout progress h h'
  | ⟨.clone _ _, some (.error _)⟩ => Spared checkout h h'
  | ⟨.clone _ _, _⟩ => h'.recordBytes checkout = none
  | ⟨q, _⟩ =>
    if q.isQuiet = true then h'.recordBytes checkout = h.recordBytes checkout else Spared checkout h h'

/-- What may be there of a progress that was stored. Its time is the one that was read back. -/
def Stored (progress : Progress) (kept : Option Progress) : Prop :=
  kept = none ∨ ∃ t, kept = some { progress with updatedAt := t }

/-- What an exchange may do to the progress that the record holds. -/
def progressMoves : Surroundings (Option Progress) := fun kept e kept' =>
  match e with
  | ⟨.load place, some loaded⟩ => place = checkout → loaded = kept ∧ kept' = kept
  | ⟨.store place progress, some (.ok ())⟩ => place = checkout → Stored progress kept'
  | ⟨.store place progress, _⟩ => place = checkout → kept' = kept ∨ Stored progress kept'
  | ⟨.clone _ _, some (.error _)⟩ => kept' = kept ∨ kept' = none
  | ⟨.clone _ _, _⟩ => kept' = none
  | ⟨q, _⟩ => kept' = kept ∨ q.isQuiet = false ∧ kept' = none

end

section

variable {checkout : Path} {h h' : Host}

theorem Spared.record (hspared : Spared checkout h h') :
    h'.record checkout = h.record checkout ∨ h'.record checkout = none :=
  hspared.imp (congrArg recordOf) (congrArg recordOf)

theorem stored_recordOf (progress : Progress) : Stored progress (recordOf (some (encode progress.text))) := by
  rw [recordOf_written]
  cases (Instant.ofText progress.updatedAt.text).toOption with
  | none => exact .inl rfl
  | some t => exact .inr ⟨t, rfl⟩

theorem CutShort.record {progress : Progress} (hcut : CutShort checkout progress h h') :
    h'.record checkout = h.record checkout ∨ Stored progress (h'.record checkout) := by
  rcases hcut with hspared | ⟨part, hpart, hbytes⟩
  · exact hspared.record.imp_right .inl
  · refine .inr ?_
    rw [Host.record, hbytes]
    by_cases hwhole : part = encode progress.text
    · rw [hwhole]
      exact stored_recordOf progress
    · exact .inl (recordOf_torn hpart hwhole)

theorem stored_of_save {progress : Progress}
    (hsave : (Progress.save checkout progress).run h = (.ok (), h')) :
    Stored progress (h'.record checkout) := by
  rw [Host.record, Progress.recordBytes_save hsave]
  split
  · exact stored_recordOf progress
  · exact .inl rfl

/-- The progress moves as the record does. -/
theorem progressMoves_of_recordMoves {e : Exchange} (hmoves : recordMoves checkout h e h') :
    progressMoves checkout (h.record checkout) e (h'.record checkout) := by
  have loud : ∀ {q : Question}, q.isQuiet = false → Spared checkout h h' →
      h'.record checkout = h.record checkout ∨ q.isQuiet = false ∧ h'.record checkout = none :=
    fun hq hspared => hspared.record.imp_right fun hnone => ⟨hq, hnone⟩
  obtain ⟨q, a⟩ := e
  cases q with
  | load place =>
    cases a with
    | none => exact loud rfl hmoves
    | some loaded =>
      rintro rfl
      obtain ⟨hloaded, hfiles⟩ := Progress.load_eq hmoves
      exact ⟨hloaded, congrArg recordOf (Progress.recordBytes_of_sameFiles hfiles)⟩
  | store place progress =>
    rcases a with _ | (e | ⟨⟩)
    · exact fun _ => CutShort.record hmoves
    · exact fun _ => CutShort.record hmoves
    · rintro rfl
      exact stored_of_save hmoves
  | clone url dest =>
    rcases a with _ | (e | ⟨⟩)
    · exact congrArg recordOf hmoves
    · exact Spared.record hmoves
    · exact congrArg recordOf hmoves
  | now => exact .inl (congrArg recordOf hmoves)
  | banner message => exact .inl (congrArg recordOf hmoves)
  | log level message =>
    change if _ then _ else _ at hmoves
    split at hmoves
    · exact .inl (congrArg recordOf hmoves)
    · next hq => exact loud (Bool.not_eq_true _ ▸ hq) hmoves
  | _ => exact loud rfl hmoves

/-- A course, as far as the progress in the record is concerned. -/
theorem progress_course {α : Type} {d : Dialogue α} {es : List Exchange} {end? : Option α}
    (course : d.Plays (recordMoves checkout) h es end? h') :
    d.Plays (progressMoves checkout) (h.record checkout) es end? (h'.record checkout) := by
  let view (h : Host) : Option Progress := h.record checkout
  have hview : ∀ h e h', recordMoves checkout h e h' → progressMoves checkout (view h) e (view h') :=
    fun _ _ _ => progressMoves_of_recordMoves
  exact course.map hview

theorem quiet_progressMoves (checkout : Path) : (progressMoves checkout).Quiet := by
  intro kept q a kept' hq hmoves
  cases q with
  | now => exact hmoves.resolve_right (by simp [hq])
  | banner message => exact hmoves.resolve_right (by simp [hq])
  | log level message => exact hmoves.resolve_right (by simp [hq])
  | _ => cases hq

end

/-! ## Histories -/

/-- A run as it went: what it was to do, what it asked and was answered, and what it ended with, if it
came to its end. -/
structure Visit where
  plan : Plan
  exchanges : List Exchange
  result : Option (Except Failure Unit × Report)

/-- Runs in one checkout, each from the state in which the one before it left off. -/
inductive History {S : Type} (w : Surroundings S) (checkout : Path) (s₀ : S) : List Visit → S → Prop
  | none : History w checkout s₀ [] s₀
  | next {past : List Visit} {v : Visit} {s s' : S} {environment packages : String}
      (before : History w checkout s₀ past s) (hplace : v.plan.checkout = checkout)
      (course : (run (.asked environment packages) v.plan (.ofPlan v.plan)).Plays w s v.exchanges
        v.result s') :
      History w checkout s₀ (past ++ [v]) s'

theorem History.last {S : Type} {w : Surroundings S} {checkout : Path} {s₀ s' : S} {past : List Visit}
    {v : Visit} (history : History w checkout s₀ (past ++ [v]) s') :
    ∃ s environment packages, History w checkout s₀ past s ∧ v.plan.checkout = checkout ∧
      (run (.asked environment packages) v.plan (.ofPlan v.plan)).Plays w s v.exchanges v.result s' := by
  generalize hall : past ++ [v] = visits at history
  cases history with
  | none => simp at hall
  | next before hplace course =>
    obtain ⟨rfl, hlast⟩ := List.append_inj' hall rfl
    obtain rfl := List.singleton_inj.mp hlast
    exact ⟨_, _, _, before, hplace, course⟩

/-- A history goes on with a run of collaborators whose answers are possible. -/
theorem History.run {S σ : Type} {w : Surroundings S} {R : S → σ → Prop}
    {c : Collaborators (StateT σ (Except σ))}
    (hc : ∀ q s v, R s v → ∃ s', w s ⟨q, (endOf ((c.answer q).run v)).1⟩ s' ∧
      R s' (endOf ((c.answer q).run v)).2)
    {checkout : Path} {s₀ s : S} {past : List Visit} {v : σ} (history : History w checkout s₀ past s)
    (h : R s v) (plan : Plan) (hplace : plan.checkout = checkout) :
    ∃ es s', History w checkout s₀
        (past ++ [⟨plan, es, (endOf ((Procedure.run c plan (.ofPlan plan)).run v)).1⟩]) s' ∧
      R s' (endOf ((Procedure.run c plan (.ofPlan plan)).run v)).2 := by
  obtain ⟨es, s', course, hR⟩ := plays_hold hc (Procedure.run (questions c) plan (.ofPlan plan)) h
  rw [hold_run] at course hR
  exact ⟨es, s', .next history hplace course, hR⟩

/-! ## Histories to look at -/

/-- The time at which they play. -/
def epoch : Instant := ⟨1970, 1, 1, 0, 0, 0, 0⟩

/-- Answers in a checkout that is there, from the progress in its record and the commit that it is at. The
setup of packages comes to `packages`, and the run is broken off while it stores the stage `torn`. -/
def staged (checkout : Path) (packages : Except ProvisionFailure Unit) (torn : Option Stage) :
    (q : Question) → StateT (Option Progress × String) (Except (Option Progress × String)) q.Answer
  | .ensureAvailable => fun v => .ok (.ok (), v)
  | .clone _ _ => fun v => .ok (.error ⟨"destination path already exists", some 128⟩, v)
  | .checkout _ revision => fun v => .ok (.ok (), v.1, revision)
  | .pull _ => fun v => .ok (.ok (), v.1, "fetched")
  | .isWorkTree _ => fun v => .ok (true, v)
  | .headRevision _ => fun v => .ok (some v.2, v)
  | .resolveRevision _ revision => fun v => .ok (some revision, v)
  | .setupEnvironment => fun v => .ok (.ok (), v)
  | .setupPackages => fun v => .ok (packages, v)
  | .present _ => fun v => .ok (true, v)
  | .load place => fun v => if place = checkout then .ok (v.1, v) else .error v
  | .store place progress => fun v =>
    if place = checkout ∧ progress.updatedAt = epoch then
      if progress.completed.getLast? = torn then .error (none, v.2)
      else .ok (.ok (), some progress, v.2)
    else .error v
  | .applySetting _ _ _ => fun v => .ok (.ok true, v)
  | .now => fun v => .ok (epoch, v)
  | .log _ _ => fun v => .ok ((), v)
  | .banner _ => fun v => .ok ((), v)

/-- How a run with these answers ends. -/
def rehearsal (plan : Plan) (packages : Except ProvisionFailure Unit) (torn : Option Stage)
    (v : Option Progress × String) : Option (Except Failure Unit × Report) × Option Progress × String :=
  endOf ((Procedure.run (.ofAnswers "env.sh" "packages.sh" (staged plan.checkout packages torn)) plan
    (.ofPlan plan)).run v)

/-- The host has a place for the record, and this is what the record holds. -/
def RecordHolds (checkout : Path) (h : Host) (kept : Option Progress) : Prop :=
  (∃ place, Progress.HasPlace checkout h place) ∧ h.record checkout = kept

theorem recordOf_at_epoch {progress : Progress} (htime : progress.updatedAt = epoch) :
    recordOf (some (encode progress.text)) = some progress := by
  have hepoch : (Instant.ofText epoch.text).toOption = some epoch := by decide +kernel
  rw [recordOf_written, htime, hepoch]
  obtain ⟨target, completed, updatedAt⟩ := progress
  obtain rfl : updatedAt = epoch := htime
  rfl

theorem staged_moves {checkout : Path} {packages : Except ProvisionFailure Unit} {torn : Option Stage}
    (q : Question) {h : Host} {v : Option Progress × String} (hh : RecordHolds checkout h v.1) :
    ∃ h', recordMoves checkout h ⟨q, (endOf ((staged checkout packages torn q).run v)).1⟩ h' ∧
      RecordHolds checkout h' (endOf ((staged checkout packages torn q).run v)).2.1 := by
  obtain ⟨⟨place, hplace⟩, hrecord⟩ := hh
  -- Only storing changes the host. A run that is broken off there leaves an empty record.
  have stay : RecordHolds checkout h v.1 := ⟨⟨place, hplace⟩, hrecord⟩
  cases q with
  | load other =>
    by_cases hother : other = checkout
    · subst hother
      have hrun : (staged other packages torn (.load other)).run v = .ok (v.1, v) := if_pos rfl
      cases hload : (Progress.load other).run h with
      | mk loaded h' =>
        obtain ⟨hloaded, hfiles⟩ := Progress.load_eq hload
        rw [hrun]
        refine ⟨h', ?_, ⟨place, hplace.sameFiles hfiles⟩, ?_⟩
        · change (Progress.load other).run h = (v.1, h')
          rw [hload, hloaded, hrecord]
        · exact (congrArg recordOf (Progress.recordBytes_of_sameFiles hfiles)).trans hrecord
    · have hrun : (staged checkout packages torn (.load other)).run v = .error v := if_neg hother
      rw [hrun]
      exact ⟨h, .inl rfl, stay⟩
  | store other progress =>
    by_cases hother : other = checkout ∧ progress.updatedAt = epoch
    · obtain ⟨rfl, htime⟩ := hother
      by_cases htorn : progress.completed.getLast? = torn
      · have hrun : (staged other packages torn (.store other progress)).run v = .error (none, v.2) :=
          (if_pos ⟨rfl, htime⟩).trans (if_pos htorn)
        rw [hrun]
        refine ⟨Progress.withRecord h place [], .inr ⟨[], List.nil_prefix, ?_⟩, ⟨place, ?_⟩, ?_⟩
        · exact hplace.recordBytes_withRecord []
        · exact hplace.withRecord []
        · rw [Host.record, hplace.recordBytes_withRecord]
          refine recordOf_torn (p := progress) List.nil_prefix fun hnil => ?_
          have htext := Progress.encode_text progress []
          rw [← hnil] at htext
          cases htext
      · have hrun : (staged other packages torn (.store other progress)).run v
            = .ok (.ok (), some progress, v.2) :=
          (if_pos ⟨rfl, htime⟩).trans (if_neg htorn)
        rw [hrun]
        refine ⟨_, hplace.save progress, ⟨place, hplace.withRecord _⟩, ?_⟩
        rw [Host.record, hplace.recordBytes_withRecord, recordOf_at_epoch htime]
        rfl
    · have hrun : (staged checkout packages torn (.store other progress)).run v = .error v := if_neg hother
      rw [hrun]
      exact ⟨h, .inl (.inl rfl), stay⟩
  | clone url dest => exact ⟨h, .inl rfl, stay⟩
  | now => exact ⟨h, rfl, stay⟩
  | banner message => exact ⟨h, rfl, stay⟩
  | log level message =>
    refine ⟨h, ?_, stay⟩
    cases level with
    | debug => exact .inl rfl
    | _ => exact rfl
  | _ => exact ⟨h, .inl rfl, stay⟩

theorem History.rehearse {h₀ h : Host} {past : List Visit} (plan : Plan) {v : Option Progress × String}
    (history : History (recordMoves plan.checkout) plan.checkout h₀ past h)
    (hh : RecordHolds plan.checkout h v.1) (packages : Except ProvisionFailure Unit) (torn : Option Stage) :
    ∃ es h', History (recordMoves plan.checkout) plan.checkout h₀
        (past ++ [⟨plan, es, (rehearsal plan packages torn v).1⟩]) h' ∧
      RecordHolds plan.checkout h' (rehearsal plan packages torn v).2.1 := by
  let R (h : Host) (v : Option Progress × String) : Prop := RecordHolds plan.checkout h v.1
  refine history.run (R := R) (fun q h v hh => ?_) hh plan rfl
  rw [Collaborators.answer_ofAnswers]
  exact staged_moves q hh

/-- A plan that is pinned to a revision. -/
def pinnedPlan (revision : String) : Plan where
  repository := "angr.git"
  revision := some revision
  checkout := ⟨"angr"⟩
  syncPolicy := .pinned
  rerunPolicy := .resume
  shell := "bash"
  environmentScript := "env.sh"
  packagesScript := "packages.sh"
  disassembler := none
  disassemblerDetected := false
  disassemblerConfig := ⟨"config.toml"⟩
  disassemblerKey := "disassembler"

/-- A host with an empty checkout. -/
def emptyCheckout : Host where
  files := ⟨[(["angr", ".git"], .directory), (["angr"], .directory)]⟩

theorem recordBytes_emptyCheckout : emptyCheckout.recordBytes ⟨"angr"⟩ = none := by decide +kernel

theorem recordHolds_emptyCheckout : RecordHolds ⟨"angr"⟩ emptyCheckout none := by
  refine ⟨⟨["angr", ".git", "fiber-bootstrap.json"], ?_⟩, ?_⟩
  · exact ⟨by decide +kernel, by decide +kernel, by decide +kernel⟩
  · exact Host.record_eq_none recordBytes_emptyCheckout

end Bringup
