import Bringup.Proofs.Skips

/-!
# Resumed runs

A run that skips a setup step trusts a run before it. `skipped_setup_was_carried_out`: that run had the same
target and carried the step out in the same checkout, and nobody has worked in it for another target since.
The mark of a setup step is good if the history has such a run, counting the run that is going on.
-/

namespace Bringup

set_option autoImplicit false

open Procedure Dialogue

/-- A setup step succeeded, and no checkout was made after it. -/
def CarriedOut (plan : Plan) (stage : Stage) (es : List Exchange) : Prop :=
  ∃ before e after, es = before ++ e :: after ∧ stage.call? plan = some e ∧ ∀ e ∈ after, e.isClone = false

/-- A run for the target has carried a setup step out. Since then no checkout was made, and every run that
worked in the checkout had the target too. -/
def Achieved (stage : Stage) (target : String) (past : List Visit) : Prop :=
  ∃ before u after, past = before ++ u :: after ∧ u.plan.targetLabel = target ∧
    CarriedOut u.plan stage u.exchanges ∧
    ∀ x ∈ after, (∀ e ∈ x.exchanges, e.isClone = false) ∧
      ((∃ e ∈ x.exchanges, e.question.isWork = true) → x.plan.targetLabel = target)

/-- The mark of a setup step is good. -/
def SetUp (past : List Visit) (target : String) (stage : Stage) : Prop :=
  stage ∈ Stage.setups → Achieved stage target past

section

variable {stage : Stage} {target : String} {past : List Visit} {v : Visit} {plan : Plan}
  {l es : List Exchange}

/-- The last run has carried the step out, or it has spared what was achieved before it. -/
theorem achieved_concat : Achieved stage target (past ++ [v]) ↔
    (v.plan.targetLabel = target ∧ CarriedOut v.plan stage v.exchanges) ∨
      (Achieved stage target past ∧ (∀ e ∈ v.exchanges, e.isClone = false) ∧
        ((∃ e ∈ v.exchanges, e.question.isWork = true) → v.plan.targetLabel = target)) := by
  constructor
  · rintro ⟨before, u, after, hall, htarget, hcarried, hafter⟩
    rcases List.eq_nil_or_concat after with rfl | ⟨after, x, rfl⟩
    · obtain ⟨rfl, hlast⟩ := List.append_inj' hall rfl
      obtain rfl := List.singleton_inj.mp hlast
      exact .inl ⟨htarget, hcarried⟩
    · rw [List.concat_eq_append] at hall hafter
      rw [← List.cons_append, ← List.append_assoc] at hall
      obtain ⟨rfl, hlast⟩ := List.append_inj' hall rfl
      obtain rfl := List.singleton_inj.mp hlast
      refine .inr ⟨⟨before, u, after, rfl, htarget, hcarried, fun x hx => hafter x ?_⟩, hafter v ?_⟩
      · exact List.mem_append_left _ hx
      · exact List.mem_append_right _ (List.mem_singleton_self v)
  · rintro (⟨htarget, hcarried⟩ | ⟨⟨before, u, after, rfl, htarget, hcarried, hafter⟩, hv⟩)
    · refine ⟨past, v, [], rfl, htarget, hcarried, fun x hx => ?_⟩
      cases hx
    · refine ⟨before, u, after ++ [v], by simp, htarget, hcarried, fun x hx => ?_⟩
      rcases List.mem_append.mp hx with hx | hx
      · exact hafter x hx
      · rw [List.mem_singleton.mp hx]
        exact hv

theorem CarriedOut.append (h : CarriedOut plan stage l) (hes : ∀ e ∈ es, e.isClone = false) :
    CarriedOut plan stage (l ++ es) := by
  obtain ⟨before, e, after, rfl, hcall, hafter⟩ := h
  refine ⟨before, e, after ++ es, by simp, hcall, fun e he => ?_⟩
  exact (List.mem_append.mp he).elim (hafter e) (hes e)

/-- What was achieved is still there if the run that goes on makes no checkout and works for the target. -/
theorem Achieved.append {result result' : Option (Except Failure Unit × Report)}
    (h : Achieved stage target (past ++ [⟨plan, l, result⟩])) (hclone : ∀ e ∈ es, e.isClone = false)
    (hwork : (∃ e ∈ es, e.question.isWork = true) → plan.targetLabel = target) :
    Achieved stage target (past ++ [⟨plan, l ++ es, result'⟩]) := by
  rw [achieved_concat] at h ⊢
  rcases h with ⟨htarget, hcarried⟩ | ⟨hpast, hbare, hworked⟩
  · exact .inl ⟨htarget, hcarried.append hclone⟩
  · refine .inr ⟨hpast, fun e he => (List.mem_append.mp he).elim (hbare e) (hclone e), ?_⟩
    rintro ⟨e, he, hq⟩
    rcases List.mem_append.mp he with he | he
    · exact hworked ⟨e, he, hq⟩
    · exact hwork ⟨e, he, hq⟩

theorem Exchange.isHeard_of_isWork {e : Exchange} (he : e.question.isWork = true) : e.isHeard = true := by
  obtain ⟨q, a⟩ := e
  cases q <;> first | rfl | cases he

theorem Question.isClone_of_isWork {q : Question} (hq : q.isWork = true) : q.isClone = false := by
  cases q with
  | clone _ _ => cases hq
  | _ => rfl

theorem CarriedOut.of_heard (h : CarriedOut plan stage (es.filter Exchange.isHeard)) :
    CarriedOut plan stage es := by
  obtain ⟨before, e, after, hes, hcall, hafter⟩ := h
  obtain ⟨l₁, l₂, rfl, _, hl₂⟩ := List.filter_eq_append_iff.mp hes
  obtain ⟨l₃, l₄, rfl, _, _, rfl⟩ := List.filter_eq_cons_iff.mp hl₂
  exact ⟨l₁ ++ l₃, e, l₄, by simp, hcall, bare_of_heard hafter⟩

theorem Achieved.of_heard {result result' : Option (Except Failure Unit × Report)}
    (h : Achieved stage target (past ++ [⟨plan, es.filter Exchange.isHeard, result⟩])) :
    Achieved stage target (past ++ [⟨plan, es, result'⟩]) := by
  rw [achieved_concat] at h ⊢
  refine h.imp (fun h => ⟨h.1, h.2.of_heard⟩) fun h => ⟨h.1, bare_of_heard h.2.1, ?_⟩
  rintro ⟨e, he, hq⟩
  exact h.2.2 ⟨e, List.mem_filter.mpr ⟨he, Exchange.isHeard_of_isWork hq⟩, hq⟩

/-- An exchange that makes no checkout and does no work for another target spares the marks. -/
theorem SetUp.noted {e : Exchange} (h : SetUp (past ++ [⟨plan, l, none⟩]) target stage)
    (hclone : e.isClone = false) (hwork : e.question.isWork = true → plan.targetLabel = target) :
    SetUp (past ++ [⟨plan, l ++ [e].filter Exchange.isHeard, none⟩]) target stage := by
  intro hstage
  refine (h hstage).append (fun e' he' => ?_) ?_
  · rw [eq_of_mem_heard he', hclone]
  · rintro ⟨e', he', hq⟩
    exact hwork (eq_of_mem_heard he' ▸ hq)

/-- The marks of setup steps are good throughout a run, which counts as the last of the history. -/
theorem vouches_setUp (past : List Visit) (plan : Plan) :
    Vouches (fun l => SetUp (past ++ [⟨plan, l, none⟩])) (progressMoves plan.checkout).noted plan where
  quiet := (quiet_progressMoves plan.checkout).noted
  moves h := h.1
  idle := by
    intro v e v' h hwork hclone target stage hgood
    rw [h.2]
    refine SetUp.noted hgood (Exchange.isClone_of_question hclone) fun hq => ?_
    rw [hwork] at hq
    cases hq
  refused := by
    intro v v' url dest e h
    refine .inr fun target stage hgood => ?_
    rw [h.2]
    exact SetUp.noted hgood rfl nofun
  work := by
    intro stage v e v' hwork h other _ hgood
    rw [h.2]
    have hclone := Question.isClone_of_isWork (Stage.isWork_of_work hwork)
    exact SetUp.noted hgood (Exchange.isClone_of_question hclone) fun _ => rfl
  earned := by
    intro stage v e v' hwork hcall h _
    have hheard : [e].filter Exchange.isHeard = [e] :=
      List.filter_eq_self.mpr fun e' he' =>
        List.mem_singleton.mp he' ▸ Exchange.isHeard_of_isWork (Stage.isWork_of_work hwork)
    rw [h.2, hheard]
    exact achieved_concat.mpr (.inl ⟨rfl, v.2, e, [], rfl, hcall, nofun⟩)
  free _ _ := ⟨fun h => absurd h (by decide), fun h => absurd h (by decide)⟩

end

section

variable {checkout : Path} {h₀ h : Host}

/-- In every history the marks of setup steps in the record are good. -/
theorem honest_setUp {visits : List Visit} (history : History (recordMoves checkout) checkout h₀ visits h)
    (hbare : h₀.recordBytes checkout = none) : Honest SetUp (h.record checkout, visits) := by
  induction history with
  | none =>
    rw [Host.record_eq_none hbare]
    exact honest_of_none rfl
  | @next past v h h' environment packages before hplace course ih =>
    subst hplace
    -- The run that goes on is a visit that has no result yet. It starts without an exchange.
    have hbegin : Honest (fun l => SetUp (past ++ [⟨v.plan, l, none⟩])) (h.record v.plan.checkout, []) := by
      intro p hp stage hmark hstage
      refine achieved_concat.mpr (.inr ⟨ih p hp stage hmark hstage, ?_, ?_⟩)
      · intro e he
        cases he
      · intro hwork
        simp at hwork
    have hended := ((vouches_setUp past v.plan).keeps_honest environment packages hbegin).plays
      ((progress_course course).noted [])
    intro p hp stage hmark hstage
    exact (hended.invariant p hp stage hmark hstage).of_heard

end

/-- A setup step is skipped only if an earlier run for the same target has carried it out in the same
checkout, and every run since then that worked in the checkout had that target. -/
theorem skipped_setup_was_carried_out {checkout : Path} {h₀ h : Host} {past : List Visit} {v : Visit}
    (history : History (recordMoves checkout) checkout h₀ (past ++ [v]) h)
    (hbare : h₀.recordBytes checkout = none) {stage : Stage} (hstage : stage ∈ Stage.setups)
    (hskipped : v.Records stage .skipped) :
    Achieved stage v.plan.targetLabel past ∧ ∀ e ∈ v.exchanges, e.isClone = false := by
  obtain ⟨h₁, environment, packages, before, rfl, course⟩ := history.last
  obtain ⟨⟨p, hfound, htarget, hmark⟩, hclone⟩ :=
    skipped_was_loaded (progress_course course) hstage hskipped
  have hachieved := (honest_setUp before hbare).of_record hfound stage hmark hstage
  rw [htarget] at hachieved
  exact ⟨hachieved, hclone⟩

/-- A run fails after it has set the environment up, one for another target is refused, and the next one for
the first target skips the environment. -/
theorem skipped_setup_after_failure :
    ∃ (h₀ h : Host) (u₁ u₂ v : Visit),
      History (recordMoves ⟨"angr"⟩) ⟨"angr"⟩ h₀ ([u₁, u₂] ++ [v]) h ∧ h₀.recordBytes ⟨"angr"⟩ = none ∧
      u₂.plan.targetLabel = "b2" ∧ v.plan.targetLabel = "a1" ∧ v.Records .envReady .skipped ∧
      Achieved .envReady "a1" [u₁, u₂] := by
  let plan := pinnedPlan "a1"
  let plan' : Plan := { pinnedPlan "b2" with rerunPolicy := .fail }
  let failed : Except ProvisionFailure Unit := .error (.missingScript "packages.sh")
  have hstart : History (recordMoves plan.checkout) plan.checkout emptyCheckout [] _ := .none
  let v₁ := rehearsal plan failed none (none, "c0")
  let v₂ := rehearsal plan' (.ok ()) none v₁.2
  let v₃ := rehearsal plan (.ok ()) none v₂.2
  obtain ⟨es₁, h₁, history₁, hh₁⟩ :=
    hstart.rehearse plan (v := (none, "c0")) recordHolds_emptyCheckout failed none
  obtain ⟨es₂, h₂, history₂, hh₂⟩ := history₁.rehearse plan' hh₁ (.ok ()) none
  obtain ⟨es₃, h₃, history₃, hh₃⟩ := history₂.rehearse plan hh₂ (.ok ()) none
  have hend : (v₃.1.any fun out => out.2.stages.contains ⟨.envReady, .skipped, resumedNote⟩) = true := by
    decide +kernel
  have hskipped : Visit.Records ⟨plan, es₃, v₃.1⟩ .envReady .skipped := by
    obtain ⟨⟨result, report⟩, hresult, hreport⟩ := (Option.any_eq_true _ _).mp hend
    refine .inl ⟨report, ?_, resumedNote, List.contains_iff_mem.mp hreport⟩
    rw [hresult]
    rfl
  have hachieved := skipped_setup_was_carried_out history₃ recordBytes_emptyCheckout (by decide) hskipped
  exact ⟨emptyCheckout, h₃, ⟨plan, es₁, v₁.1⟩, ⟨plan', es₂, v₂.1⟩, ⟨plan, es₃, v₃.1⟩, history₃,
    recordBytes_emptyCheckout, rfl, rfl, hskipped, hachieved.1⟩

end Bringup
