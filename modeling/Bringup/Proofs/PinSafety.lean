import Bringup.Proofs.Marks
import Bringup.Toml.Scalar

/-!
# Pinned runs end at their revision

A run may leave a checkout of its revision out on the word of a record that another run has stored.
`pinned_run_ends_at_revision`: whatever happened before, a run that was pinned to a commit and has come to
its last stage leaves the checkout at that commit. The mark of the stage `pinned` is good for as long as
the checkout is at the commit that the record's target names, and no target of another policy looks like
the id of a commit.
-/

namespace Bringup

set_option autoImplicit false

open Procedure Dialogue

/-- A host, and the commit that the checkout on it is at. -/
structure Site (γ : Type) where
  host : Host
  head : γ

/-- The text is made of hexadecimal digits, as the ids of commits are. -/
def IsHexadecimal (revision : String) : Prop := ∀ c ∈ revision.toList, Toml.isHexDigit c = true

section

variable {γ : Type} (names : String → γ)

/-- What an exchange may do to the commit that a checkout is at, where a revision names a commit. `bare`
says that the checkout has no record afterwards. -/
def headMoves (bare : Prop) (head : γ) (e : Exchange) (head' : γ) : Prop :=
  match e with
  | ⟨.checkout _ revision, some (.ok ())⟩ => head' = names revision
  | ⟨.checkout _ _, none⟩ => True
  | ⟨.pull _, _⟩ => True
  | ⟨.clone _ _, some (.error _)⟩ => head' = head ∨ bare
  | ⟨.clone _ _, _⟩ => True
  | _ => head' = head

/-- What an exchange may do to a site. -/
def siteMoves (checkout : Path) : Surroundings (Site γ) := fun s e s' =>
  recordMoves checkout s.host e s'.host ∧
    headMoves names (s'.host.recordBytes checkout = none) s.head e s'.head

/-- What an exchange may do to the progress in the record and to the commit. -/
def pinMoves (checkout : Path) : Surroundings (Option Progress × γ) := fun v e v' =>
  progressMoves checkout v.1 e v'.1 ∧ headMoves names (v'.1 = none) v.2 e v'.2

/-- The mark of a checkout says where the checkout is, if the target is the id of a commit. -/
def AtTarget (head : γ) (target : String) (stage : Stage) : Prop :=
  stage = .pinned → IsHexadecimal target → head = names target

end

section

variable {γ : Type} {names : String → γ} {checkout : Path} {plan : Plan}

theorem headMoves.mono {bare bare' : Prop} {head head' : γ} {e : Exchange} (hbare : bare → bare')
    (h : headMoves names bare head e head') : headMoves names bare' head e head' := by
  obtain ⟨q, a⟩ := e
  cases q with
  | clone _ _ =>
    rcases a with _ | (_ | _)
    · trivial
    · exact h.imp_right hbare
    · trivial
  | checkout _ _ => rcases a with _ | (_ | _) <;> exact h
  | _ => exact h

theorem pinMoves_of_siteMoves {s s' : Site γ} {e : Exchange} (h : siteMoves names checkout s e s') :
    pinMoves names checkout (s.host.record checkout, s.head) e (s'.host.record checkout, s'.head) := by
  dsimp only [pinMoves]
  exact ⟨progressMoves_of_recordMoves h.1, h.2.mono Host.record_eq_none⟩

theorem head_of_idle {bare : Prop} {head head' : γ} {e : Exchange} (hwork : e.question.isWork = false)
    (hclone : e.question.isClone = false) (h : headMoves names bare head e head') :
    head' = head := by
  obtain ⟨q, a⟩ := e
  cases q with
  | checkout _ _ => cases hwork
  | pull _ => cases hwork
  | clone _ _ => cases hclone
  | _ => exact h

/-- Only a run that is pinned has a target that looks like the id of a commit. -/
theorem pinned_of_isHexadecimal (h : IsHexadecimal plan.targetLabel) :
    plan.syncPolicy = .pinned ∧ plan.revision = some plan.targetLabel := by
  have hlatest : ¬ IsHexadecimal "latest" := fun h => absurd (h 'l' (by decide)) (by decide)
  have hsync : ∀ revision, ¬ IsHexadecimal (revision ++ "+sync") := by
    intro revision h
    exact absurd (h '+' (by simp)) (by decide)
  rw [Plan.targetLabel] at h ⊢
  split at h
  · exact absurd h hlatest
  · exact absurd h hlatest
  · exact absurd h (hsync _)
  · next hpolicy hrevision => exact ⟨hpolicy, hrevision⟩

theorem vouches_atTarget (names : String → γ) (plan : Plan) :
    Vouches (AtTarget names) (pinMoves names plan.checkout) plan where
  quiet := by
    intro v q a v' hq h
    have hhead : v'.2 = v.2 := by
      refine head_of_idle ?_ ?_ h.2 <;> cases q <;> first | rfl | cases hq
    exact Prod.ext (quiet_progressMoves _ _ _ _ _ hq h.1) hhead
  moves h := h.1
  idle h hwork hclone target stage hgood hstage hhex := by
    rw [head_of_idle hwork hclone h.2]
    exact hgood hstage hhex
  refused h := by
    refine h.2.symm.imp_right fun hhead target stage hgood => ?_
    rw [hhead]
    exact hgood
  work := by
    -- Only the checkout of the stage `pinned` itself moves a run with such a target.
    rintro stage v ⟨q, a⟩ v' hwork h other hother hgood rfl hhex
    have hpolicy := (pinned_of_isHexadecimal hhex).1
    cases stage with
    | pinned => exact absurd rfl hother
    | synced => simp [Stage.work?, hpolicy] at hwork
    | envReady =>
      obtain rfl := Option.some.inj hwork
      exact h.2.trans (hgood rfl hhex)
    | pkgsReady =>
      obtain rfl := Option.some.inj hwork
      exact h.2.trans (hgood rfl hhex)
    | _ => cases hwork
  earned := by
    rintro stage v e v' _ hcall h rfl hhex
    have hrevision := (pinned_of_isHexadecimal hhex).2
    obtain ⟨revision, hpinned, rfl⟩ := Option.map_eq_some_iff.mp hcall
    have hsame := (pinnedRevision_eq_some hpinned).2.symm.trans hrevision
    rw [← Option.some.inj hsame]
    exact h.2
  free _ _ := ⟨nofun, nofun⟩

theorem ended_atTarget {environment packages : String} {s s' : Site γ} {es : List Exchange}
    {result : Option (Except Failure Unit × Report)}
    (hs : Honest (AtTarget names) (s.host.record plan.checkout, s.head))
    (course : (run (.asked environment packages) plan (.ofPlan plan)).Plays (siteMoves names plan.checkout) s
      es result s') :
    Ended (Honest (AtTarget names))
      (fun out v => Honest (AtTarget names) v ∧ (out.2.stage = .done → ∀ stage, (stage.work? plan).isSome →
        AtTarget names v.2 plan.targetLabel stage)) result (s'.host.record plan.checkout, s'.head) :=
  ((vouches_atTarget names plan).keeps_honest environment packages hs).plays
    (course.map fun _ _ _ => pinMoves_of_siteMoves)

theorem honest_history {s₀ s : Site γ} {visits : List Visit}
    (history : History (siteMoves names checkout) checkout s₀ visits s)
    (hbare : s₀.host.recordBytes checkout = none) :
    Honest (AtTarget names) (s.host.record checkout, s.head) := by
  induction history with
  | none =>
    rw [Host.record_eq_none hbare]
    exact honest_of_none rfl
  | next before hplace course ih =>
    subst hplace
    exact (ended_atTarget ih course).invariant

end

/-- The record of a site and the commit that it is at. -/
def SiteHolds (checkout : Path) (s : Site String) (v : Option Progress × String) : Prop :=
  RecordHolds checkout s.host v.1 ∧ s.head = v.2

theorem staged_siteMoves {checkout : Path} {packages : Except ProvisionFailure Unit} {torn : Option Stage}
    (q : Question) {s : Site String} {v : Option Progress × String} (h : SiteHolds checkout s v) :
    ∃ s', siteMoves id checkout s ⟨q, (endOf ((staged checkout packages torn q).run v)).1⟩ s' ∧
      SiteHolds checkout s' (endOf ((staged checkout packages torn q).run v)).2 := by
  obtain ⟨host, hmoves, hholds⟩ := @staged_moves checkout packages torn q _ _ h.1
  refine ⟨⟨host, (endOf ((staged checkout packages torn q).run v)).2.2⟩, ⟨hmoves, ?_⟩, hholds, rfl⟩
  cases q with
  | clone _ _ => exact .inl h.2.symm
  | checkout _ _ => rfl
  | pull _ => trivial
  | load place =>
    change (endOf (if place = checkout then .ok (v.1, v) else .error v)).2.2 = s.head
    split <;> exact h.2.symm
  | store place progress =>
    change (endOf (if place = checkout ∧ progress.updatedAt = epoch then
      if progress.completed.getLast? = torn then .error (none, v.2) else .ok (.ok (), some progress, v.2)
      else .error v : Except _ (Except IoError Unit × _))).2.2 = s.head
    split
    · split <;> exact h.2.symm
    · exact h.2.symm
  | _ => exact h.2.symm

theorem History.rehearse_site {s₀ s : Site String} {past : List Visit} (plan : Plan)
    {v : Option Progress × String} (history : History (siteMoves id plan.checkout) plan.checkout s₀ past s)
    (h : SiteHolds plan.checkout s v) (packages : Except ProvisionFailure Unit) (torn : Option Stage) :
    ∃ es s', History (siteMoves id plan.checkout) plan.checkout s₀
        (past ++ [⟨plan, es, (rehearsal plan packages torn v).1⟩]) s' ∧
      SiteHolds plan.checkout s' (rehearsal plan packages torn v).2 := by
  refine history.run (fun q s v h => ?_) h plan rfl
  rw [Collaborators.answer_ofAnswers]
  exact staged_siteMoves q h

/-- Whatever was run in a checkout before and however it ended, a run that is pinned to a commit and comes
to its last stage leaves the checkout at that commit. -/
theorem pinned_run_ends_at_revision {γ : Type} (names : String → γ) {checkout : Path} {s₀ s : Site γ}
    {past : List Visit} {v : Visit} (history : History (siteMoves names checkout) checkout s₀ (past ++ [v]) s)
    (hbare : s₀.host.recordBytes checkout = none) {result : Except Failure Unit} {report : Report}
    (hend : v.result = some (result, report)) (hdone : report.stage = .done)
    (hpolicy : v.plan.syncPolicy = .pinned) {revision : String} (hrevision : v.plan.revision = some revision)
    (hid : IsHexadecimal revision) : s.head = names revision := by
  obtain ⟨s₁, environment, packages, before, rfl, course⟩ := history.last
  have hended := ended_atTarget (honest_history before hbare) course
  rw [hend] at hended
  have htarget : v.plan.targetLabel = revision := by
    rw [Plan.targetLabel, hpolicy, hrevision]
  have hwork : (Stage.pinned.work? v.plan).isSome := by
    simp [Stage.work?, pinnedRevision, hpolicy, hrevision]
  have hat := hended.2 hdone .pinned hwork rfl
  rw [htarget] at hat
  exact hat hid

/-- A run is broken off while it stores its progress, the next one fails, and the last one takes the word of
the second that the revision is checked out. -/
theorem pinned_run_after_interruption :
    ∃ (s₀ s : Site String) (u₁ u₂ v : Visit) (result : Except Failure Unit) (report : Report),
      History (siteMoves id ⟨"angr"⟩) ⟨"angr"⟩ s₀ ([u₁, u₂] ++ [v]) s ∧
      s₀.host.recordBytes ⟨"angr"⟩ = none ∧ s₀.head = "c0" ∧ u₁.result = none ∧
      v.plan = pinnedPlan "a1" ∧ v.result = some (result, report) ∧ report.stage = .done ∧
      ⟨.pinned, .skipped, resumedNote⟩ ∈ report.stages ∧ s.head = "a1" := by
  let plan := pinnedPlan "a1"
  have hbegin : SiteHolds plan.checkout ⟨emptyCheckout, "c0"⟩ (none, "c0") :=
    ⟨recordHolds_emptyCheckout, rfl⟩
  have hstart : History (siteMoves id plan.checkout) plan.checkout ⟨emptyCheckout, "c0"⟩ [] _ := .none
  obtain ⟨es₁, s₁, h₁, hs₁⟩ := hstart.rehearse_site plan hbegin (.ok ()) (some .pkgsReady)
  obtain ⟨es₂, s₂, h₂, hs₂⟩ := h₁.rehearse_site plan hs₁ (.error (.missingScript "packages.sh")) none
  obtain ⟨es₃, s₃, h₃, hs₃⟩ := h₂.rehearse_site plan hs₂ (.ok ()) none
  let v₁ := rehearsal plan (.ok ()) (some .pkgsReady) (none, "c0")
  let v₂ := rehearsal plan (.error (.missingScript "packages.sh")) none v₁.2
  let v₃ := rehearsal plan (.ok ()) none v₂.2
  have hbroken : v₁.1 = none := Option.isNone_iff_eq_none.mp (by decide +kernel)
  have hend : (v₃.1.any fun out =>
      out.2.stage == .done && out.2.stages.contains ⟨.pinned, .skipped, resumedNote⟩) = true := by
    decide +kernel
  obtain ⟨⟨result, report⟩, hresult, hreport⟩ := (Option.any_eq_true _ _).mp hend
  rw [Bool.and_eq_true, beq_iff_eq, List.contains_iff_mem] at hreport
  refine ⟨⟨emptyCheckout, "c0"⟩, s₃, ⟨plan, es₁, v₁.1⟩, ⟨plan, es₂, v₂.1⟩, ⟨plan, es₃, v₃.1⟩, result, report,
    h₃, recordBytes_emptyCheckout, rfl, hbroken, rfl, hresult, hreport.1, hreport.2, ?_⟩
  have hid : IsHexadecimal "a1" := List.all_eq_true.mp (by decide +kernel)
  exact pinned_run_ends_at_revision (v := ⟨plan, es₃, v₃.1⟩) id h₃ recordBytes_emptyCheckout hresult hreport.1
    rfl rfl hid

end Bringup
