import Bringup.Proofs.Storage

/-!
# A checkout on a host that keeps it

* `reliable`: what an exchange may do to a host where a new checkout is whole, where storing succeeds, and
  where nothing else touches the checkout or its record.
* `Grounds.moves`: the same for what a run can see of the checkout.
* `History.run_dependable`: runs with answers that such a host gives.
-/

namespace Bringup

set_option autoImplicit false

open Bringup.Text Utf8
open Dialogue

/-! ## Files that are written -/

theorem FileTree.present_of_write {t t' : FileTree} {cwd : Place} {p q : Path} {contents : Bytes}
    (hwrite : t.write cwd p contents = .ok t') (hpresent : t.present cwd q = true) :
    t'.present cwd q = true := by
  rw [FileTree.write] at hwrite
  cases hplace : t.resolve cwd p with
  | error e =>
    rw [hplace] at hwrite
    cases hwrite
  | ok place =>
    rw [hplace] at hwrite
    dsimp only [bind, Except.bind] at hwrite
    split at hwrite
    · cases hwrite
    · next hnode =>
      cases hwrite
      exact FileTree.present_put hnode _ hpresent

theorem Progress.present_save {checkout path : Path} {p : Progress} {h h' : Host}
    (hsave : (Progress.save checkout p).run h = (.ok (), h')) (hpresent : h.files.present h.cwd path = true) :
    h'.files.present h'.cwd path = true := by
  cases hgit : h.files.present h.cwd (Progress.directory checkout) with
  | true =>
    obtain ⟨_, hwrite, rfl⟩ := Progress.write_of_save hsave hgit
    exact FileTree.present_of_write hwrite hpresent
  | false =>
    obtain ⟨_, hrun, hfiles, hcwd⟩ := Progress.save_of_absent hgit p
    cases hrun.symm.trans hsave
    rw [hfiles, hcwd]
    exact hpresent

/-! ## Surroundings -/

section

variable (checkout : Path)

/-- The checkout, its directory of source control and its record are as they were. -/
structure LeftAlone (h h' : Host) : Prop where
  there : h'.files.present h'.cwd checkout = h.files.present h.cwd checkout
  directory : h'.files.present h'.cwd (Progress.directory checkout)
    = h.files.present h.cwd (Progress.directory checkout)
  record : h'.recordBytes checkout = h.recordBytes checkout

/-- What an exchange may do to a host that can be relied on. No run is broken off. A new checkout has a
directory of source control and is a work tree, a failure leaves no checkout, storing succeeds, and nothing
else touches the checkout or its record. -/
def reliable : Surroundings Host := fun h e h' =>
  match e with
  | ⟨_, none⟩ => False
  | ⟨.present place, some there⟩ =>
    LeftAlone checkout h h' ∧ (place = checkout → there = h.files.present h.cwd checkout)
  | ⟨.load place, some loaded⟩ =>
    if place = checkout then (Progress.load checkout).run h = (loaded, h') else LeftAlone checkout h h'
  | ⟨.store place progress, some result⟩ =>
    result = .ok () ∧
      if place = checkout then (Progress.save checkout progress).run h = (.ok (), h')
      else LeftAlone checkout h h'
  | ⟨.clone _ _, some (.ok ())⟩ =>
    h'.files.present h'.cwd checkout = true ∧ h'.files.present h'.cwd (Progress.directory checkout) = true
  | ⟨.clone _ _, some (.error _)⟩ => h'.files.present h'.cwd checkout = false
  | ⟨.isWorkTree place, some isTree⟩ =>
    LeftAlone checkout h h' ∧ (place = checkout →
      h.files.present h.cwd (Progress.directory checkout) = true → isTree = true)
  | ⟨.now, some t⟩ => LeftAlone checkout h h' ∧ t.OfClock
  | _ => LeftAlone checkout h h'

end

/-- What a run can see of a checkout. -/
structure Grounds where
  there : Bool
  /-- It has a directory of source control. -/
  controlled : Bool
  record : Option Progress

def Host.grounds (h : Host) (checkout : Path) : Grounds :=
  ⟨h.files.present h.cwd checkout, h.files.present h.cwd (Progress.directory checkout), h.record checkout⟩

/-- What an exchange may do to it on a host that can be relied on. -/
def Grounds.moves (checkout : Path) : Surroundings Grounds := fun s e s' =>
  match e with
  | ⟨_, none⟩ => False
  | ⟨.present place, some there⟩ => s' = s ∧ (place = checkout → there = s.there)
  | ⟨.load place, some loaded⟩ => s' = s ∧ (place = checkout → loaded = s.record)
  | ⟨.store place progress, some result⟩ =>
    result = .ok () ∧ (place = checkout → s.there = true → s.controlled = true →
      progress.updatedAt.OfClock → s' = ⟨true, true, some progress⟩)
  | ⟨.clone _ _, some (.ok ())⟩ => s'.there = true ∧ s'.controlled = true
  | ⟨.clone _ _, some (.error _)⟩ => s'.there = false
  | ⟨.isWorkTree place, some isTree⟩ => s' = s ∧ (place = checkout → s.controlled = true → isTree = true)
  | ⟨.now, some t⟩ => s' = s ∧ t.OfClock
  | _ => s' = s

section

variable {checkout : Path} {h h' : Host}

theorem grounds_record (h : Host) (checkout : Path) : (h.grounds checkout).record = h.record checkout := by
  rw [Host.grounds]

theorem LeftAlone.grounds (hleft : LeftAlone checkout h h') : h'.grounds checkout = h.grounds checkout := by
  rw [Host.grounds, Host.grounds, hleft.there, hleft.directory, Host.record, hleft.record, Host.record]

theorem LeftAlone.of_sameFiles (hfiles : h.SameFiles h') : LeftAlone checkout h h' := by
  refine ⟨?_, ?_, Progress.recordBytes_of_sameFiles hfiles⟩
  · rw [hfiles.1, hfiles.2]
  · rw [hfiles.1, hfiles.2]

theorem grounds_save {p : Progress} (hsave : (Progress.save checkout p).run h = (.ok (), h'))
    (hthere : (h.grounds checkout).there = true) (hcontrolled : (h.grounds checkout).controlled = true)
    (hclock : p.updatedAt.OfClock) : h'.grounds checkout = ⟨true, true, some p⟩ := by
  rw [Host.grounds, Progress.present_save hsave hthere, Progress.present_save hsave hcontrolled,
    Progress.record_save (.inr hclock) hcontrolled hsave]

/-- What a run sees moves as the host does. -/
theorem moves_of_reliable {e : Exchange} (hmoves : reliable checkout h e h') :
    Grounds.moves checkout (h.grounds checkout) e (h'.grounds checkout) := by
  obtain ⟨q, a⟩ := e
  cases a with
  | none => cases q <;> exact hmoves
  | some a =>
    cases q with
    | present place => exact ⟨hmoves.1.grounds, hmoves.2⟩
    | load place =>
      change if _ then _ else _ at hmoves
      split at hmoves
      · obtain ⟨hloaded, hfiles⟩ := Progress.load_eq hmoves
        exact ⟨(LeftAlone.of_sameFiles hfiles).grounds, fun _ => hloaded.trans (grounds_record h _).symm⟩
      · next hother => exact ⟨hmoves.grounds, fun hplace => absurd hplace hother⟩
    | store place progress =>
      obtain ⟨hresult, hmoves⟩ := hmoves
      refine ⟨hresult, fun hplace hthere hcontrolled hclock => ?_⟩
      rw [if_pos hplace] at hmoves
      exact grounds_save hmoves hthere hcontrolled hclock
    | clone url dest =>
      cases a with
      | ok u => exact hmoves
      | error e => exact hmoves
    | isWorkTree place => exact ⟨hmoves.1.grounds, hmoves.2⟩
    | now => exact ⟨hmoves.1.grounds, hmoves.2⟩
    | _ => exact hmoves.grounds

theorem quiet_moves (checkout : Path) : (Grounds.moves checkout).Quiet := by
  intro s q a s' hq hmoves
  cases a with
  | none => cases q <;> cases hmoves
  | some a =>
    cases q with
    | now => exact hmoves.1
    | banner message => exact hmoves
    | log level message => exact hmoves
    | _ => cases hq

end

/-! ## A host to look at -/

/-- Answers on a host that has no checkout, or one and the progress in its record. -/
def dependable (checkout : Path) (packages : Except ProvisionFailure Unit) : (q : Question) →
    StateT (Option (Option Progress)) (Except (Option (Option Progress))) q.Answer
  | .clone _ _ => fun _ => .ok (.ok (), some none)
  | .present _ => fun v => .ok (v.isSome, v)
  | .load _ => fun v => .ok (v.join, v)
  | .store place progress => fun v =>
    let stored := if progress.updatedAt = epoch then some progress else recordOf (some (encode progress.text))
    .ok (.ok (), if place = checkout then v.map fun _ => stored else v)
  | q => fun v =>
    match (staged checkout packages none q).run (none, "c0") with
    | .ok (a, _) => .ok (a, v)
    | .error _ => .error v

/-- How a run with these answers ends. -/
def dependableRun (plan : Plan) (packages : Except ProvisionFailure Unit) (v : Option (Option Progress)) :
    Option (Except Failure Unit × Report) × Option (Option Progress) :=
  endOf ((Procedure.run (.ofAnswers "env.sh" "packages.sh" (dependable plan.checkout packages)) plan
    (.ofPlan plan)).run v)

/-- The host has no checkout, or one whose record holds this. -/
def CheckoutHolds (checkout : Path) (h : Host) : Option (Option Progress) → Prop
  | none => h.files.present h.cwd checkout = false ∧
      h.files.present h.cwd (Progress.directory checkout) = false
  | some kept => h.files.present h.cwd checkout = true ∧ RecordHolds checkout h kept

theorem ofClock_epoch : epoch.OfClock := ⟨⟨0, 0⟩, by decide, by decide +kernel, by decide +kernel⟩

section

variable {checkout : Path} {h h' : Host} {v : Option (Option Progress)}

theorem CheckoutHolds.sameFiles (hh : CheckoutHolds checkout h v) (hfiles : h.SameFiles h') :
    CheckoutHolds checkout h' v := by
  have hrecord : h'.recordBytes checkout = h.recordBytes checkout := Progress.recordBytes_of_sameFiles hfiles
  cases v with
  | none =>
    rw [CheckoutHolds, hfiles.1, hfiles.2]
    exact hh
  | some kept =>
    obtain ⟨hpresent, ⟨place, hplace⟩, hkept⟩ := hh
    refine ⟨?_, ⟨place, hplace.sameFiles hfiles⟩, (congrArg recordOf hrecord).trans hkept⟩
    rw [hfiles.1, hfiles.2]
    exact hpresent

theorem CheckoutHolds.record (hh : CheckoutHolds checkout h v) : h.record checkout = v.join := by
  cases v with
  | none => exact Host.record_eq_none (Progress.recordBytes_of_absent hh.2)
  | some kept => exact hh.2.2

theorem CheckoutHolds.present (hh : CheckoutHolds checkout h v) :
    h.files.present h.cwd checkout = v.isSome := by
  cases v with
  | none => exact hh.1
  | some kept => exact hh.1

theorem CheckoutHolds.save (hh : CheckoutHolds checkout h v) (progress : Progress) :
    ∃ h', (Progress.save checkout progress).run h = (.ok (), h') ∧
      CheckoutHolds checkout h' (v.map fun _ => recordOf (some (encode progress.text))) := by
  cases v with
  | none =>
    obtain ⟨h', hsave, hfiles⟩ := Progress.save_of_absent hh.2 progress
    exact ⟨h', hsave, hh.sameFiles hfiles⟩
  | some kept =>
    obtain ⟨hpresent, ⟨place, hplace⟩, _⟩ := hh
    refine ⟨_, hplace.save progress, ?_, ⟨place, hplace.withRecord _⟩, ?_⟩
    · exact FileTree.present_put hplace.node _ hpresent
    · rw [Host.record, hplace.recordBytes_withRecord]

theorem dependable_moves {packages : Except ProvisionFailure Unit} (q : Question)
    (hh : CheckoutHolds ⟨"angr"⟩ h v) :
    ∃ h', reliable ⟨"angr"⟩ h ⟨q, (endOf ((dependable ⟨"angr"⟩ packages q).run v)).1⟩ h' ∧
      CheckoutHolds ⟨"angr"⟩ h' (endOf ((dependable ⟨"angr"⟩ packages q).run v)).2 := by
  -- A new checkout is a host of its own, loading and storing go through the host, the rest leaves it alone.
  have still : LeftAlone ⟨"angr"⟩ h h := ⟨rfl, rfl, rfl⟩
  cases q with
  | clone url dest =>
    have hpresent : emptyCheckout.files.present emptyCheckout.cwd ⟨"angr"⟩ = true := by decide +kernel
    obtain ⟨_, hplace⟩ := recordHolds_emptyCheckout.1
    exact ⟨emptyCheckout, ⟨hpresent, hplace.present⟩, hpresent, recordHolds_emptyCheckout⟩
  | present place => exact ⟨h, ⟨still, fun _ => hh.present.symm⟩, hh⟩
  | load place =>
    by_cases hplace : place = ⟨"angr"⟩
    · cases hload : (Progress.load ⟨"angr"⟩).run h with
      | mk loaded h' =>
        obtain ⟨hloaded, hfiles⟩ := Progress.load_eq hload
        refine ⟨h', ?_, hh.sameFiles hfiles⟩
        change if _ then _ else _
        rw [if_pos hplace, hload, hloaded, hh.record]
    · refine ⟨h, ?_, hh⟩
      change if _ then _ else _
      rw [if_neg hplace]
      exact still
  | store place progress =>
    have hread : (if progress.updatedAt = epoch then some progress
        else recordOf (some (encode progress.text))) = recordOf (some (encode progress.text)) := by
      split
      · next htime => exact (recordOf_at_epoch htime).symm
      · rfl
    have hrun : (dependable ⟨"angr"⟩ packages (.store place progress)).run v = .ok (.ok (),
        if place = ⟨"angr"⟩ then v.map fun _ => recordOf (some (encode progress.text)) else v) := by
      rw [← hread]
      rfl
    rw [hrun]
    by_cases hplace : place = ⟨"angr"⟩
    · obtain ⟨h', hsave, hafter⟩ := hh.save progress
      rw [if_pos hplace]
      refine ⟨h', ⟨rfl, ?_⟩, hafter⟩
      rw [if_pos hplace]
      exact hsave
    · rw [if_neg hplace]
      refine ⟨h, ⟨rfl, ?_⟩, hh⟩
      rw [if_neg hplace]
      exact still
  | isWorkTree place => exact ⟨h, ⟨still, fun _ _ => rfl⟩, hh⟩
  | now => exact ⟨h, ⟨still, ofClock_epoch⟩, hh⟩
  | _ => exact ⟨h, still, hh⟩

end

/-- A plan that leads through every stage, and settings that make it. -/
def syncedPlan : Plan := { pinnedPlan "v1" with syncPolicy := .pinThenSync }

def syncedSettings : Settings where
  source := {
    repository := "angr.git"
    revision := some "v1"
    checkoutDir := "angr"
    syncPolicy := .pinThenSync
    rerunPolicy := .resume }
  provision := { environmentScript := "env.sh", packagesScript := "packages.sh" }
  disassembler := { configFile := ⟨"config.toml"⟩, key := "disassembler" }

theorem History.run_dependable {h₀ h : Host} {past : List Visit} {v : Option (Option Progress)}
    (history : History (reliable syncedPlan.checkout) syncedPlan.checkout h₀ past h)
    (hh : CheckoutHolds syncedPlan.checkout h v) (packages : Except ProvisionFailure Unit) :
    ∃ es h', History (reliable syncedPlan.checkout) syncedPlan.checkout h₀
        (past ++ [⟨syncedPlan, es, (dependableRun syncedPlan packages v).1⟩]) h' ∧
      CheckoutHolds syncedPlan.checkout h' (dependableRun syncedPlan packages v).2 := by
  refine history.run (fun q h v hh => ?_) hh syncedPlan rfl
  rw [Collaborators.answer_ofAnswers]
  exact dependable_moves q hh

end Bringup
