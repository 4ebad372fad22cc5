import Bringup.Proofs.Closure
import Bringup.Proofs.History
import Bringup.Proofs.LastStage

/-!
# Recording progress

Where progress cannot be recorded, a run stops.

* `Progress.Saved`: what comes of storing the record, case by case. `Host.Refuses`: something stands at the directory of
  source control, and the record cannot be written there. A file does that, as in a linked work tree.
* `Procedure.Admitted`: a run fails in a step, or when the record is refused.
* `resumed_run_stops_where_record_is_refused`: both, for a run that has taken over a work tree.
-/

namespace Bringup

set_option autoImplicit false

open Bringup.Text Utf8

/-! ## Storing the record -/

theorem FileTree.write_error {t : FileTree} {cwd : Place} {p : Path} {bytes : Bytes} {e : IoError}
    (h : t.write cwd p bytes = .error e) (other : Bytes) : t.write cwd p other = .error e := by
  rw [write] at h ⊢
  cases hplace : t.resolve cwd p with
  | error e' =>
    rw [hplace] at h
    exact h
  | ok place =>
    rw [hplace] at h
    dsimp only [bind, Except.bind] at h ⊢
    split at h
    · exact h
    · cases h

/-- Something stands where the directory of source control should be, and the record cannot be written there. -/
structure Host.Refuses (h : Host) (checkout : Path) (e : IoError) : Prop where
  present : h.files.present h.cwd (Progress.directory checkout) = true
  write : ∀ bytes, h.files.write h.cwd (Progress.path checkout) bytes = .error e

theorem Host.Refuses.sameFiles {h h' : Host} {checkout : Path} {e : IoError} (hrefuses : h.Refuses checkout e)
    (hfiles : h.SameFiles h') : h'.Refuses checkout e := by
  obtain ⟨hsame, hcwd⟩ := hfiles
  refine ⟨?_, fun bytes => ?_⟩
  · rw [hsame, hcwd]
    exact hrefuses.present
  · rw [hsame, hcwd]
    exact hrefuses.write bytes

namespace Progress

variable {checkout : Path} {p : Progress} {h : Host}

/-- What comes of storing the record in a checkout. -/
inductive Saved (checkout : Path) (p : Progress) (h : Host) : Except IoError Unit → Host → Prop
  | absent {h' : Host} (hgit : h.files.present h.cwd (directory checkout) = false) (hfiles : h.SameFiles h') :
      Saved checkout p h (.ok ()) h'
  | written {place : Place} (hplace : HasPlace checkout h place) :
      Saved checkout p h (.ok ()) (withRecord h place (encode p.text))
  | refused {e : IoError} (hrefuses : h.Refuses checkout e) : Saved checkout p h (.error e) h

theorem saved_save (checkout : Path) (p : Progress) (h : Host) :
    Saved checkout p h ((save checkout p).run h).1 ((save checkout p).run h).2 := by
  cases hgit : h.files.present h.cwd (directory checkout) with
  | false =>
    obtain ⟨h', hrun, hfiles⟩ := save_of_absent hgit p
    rw [hrun]
    exact .absent hgit hfiles
  | true =>
    cases hwrite : h.files.write h.cwd (path checkout) (encode p.text) with
    | ok files =>
      obtain ⟨place, hplace, hnode, _⟩ := FileTree.write_ok hwrite
      have hhas : HasPlace checkout h place := ⟨hgit, hplace, hnode⟩
      rw [hhas.save p]
      exact .written hhas
    | error e =>
      rw [save, HostM.run_bind, HostM.run_present]
      dsimp only
      rw [if_pos hgit, HostM.run_writeText_error hwrite]
      exact .refused ⟨hgit, FileTree.write_error hwrite⟩

theorem save_of_refuses {e : IoError} (hrefuses : h.Refuses checkout e) (p : Progress) :
    (save checkout p).run h = (.error e, h) := by
  rw [save, HostM.run_bind, HostM.run_present]
  dsimp only
  rw [if_pos hrefuses.present, HostM.run_writeText_error (hrefuses.write _)]

/-- The record lies in a directory, so it cannot be stored where a file stands for that. -/
theorem refuses_of_isFile (hfile : h.files.isFile h.cwd (directory checkout) = true) : ∃ e, h.Refuses checkout e := by
  obtain ⟨place, hplace⟩ := FileTree.hasFile_of_isFile hfile
  have hpresent : h.files.present h.cwd (directory checkout) = true := by
    obtain ⟨node, hnode, _⟩ := hplace.node
    rw [FileTree.present, FileTree.find_of_get? hplace.resolve hnode]
    rfl
  cases hresolve : h.files.resolve h.cwd (path checkout) with
  | error e =>
    refine ⟨e, hpresent, fun bytes => ?_⟩
    rw [FileTree.write, hresolve]
    rfl
  | ok record =>
    obtain ⟨before, hbefore⟩ := spelling_directory checkout
    obtain ⟨dir, hdir, hnode⟩ := FileTree.resolve_child (by simp [hbefore]) (by simp [hbefore]) (by decide) hresolve
    obtain rfl : place = dir := Except.ok.inj (hplace.resolve.symm.trans hdir)
    exact absurd hnode hplace.not_directory

end Progress

/-! ## Where a run fails -/

namespace Procedure

open Dialogue

section

variable {S : Type} {w : Surroundings S} {F : Failure → Report → S → Prop} {plan : Plan} {progress : Progress}
  {stage : Stage} {r : Report} {s : S} {environment packages : String} {ε : Type}

/-- Every failure of a step and every failure to store the record is admitted. -/
structure Admitted (w : Surroundings S) (plan : Plan) (F : Failure → Report → S → Prop) : Prop where
  step : ∀ f r s, f.isStepFailure = true → F f r s
  store : ∀ p e r s s', w s ⟨.store plan.checkout p, some (.error e)⟩ s' → F (.io e) r s'

theorem Admitted.completed (hF : Admitted w plan F) :
    Completed w (fun _ => True) F plan progress stage (fun _ _ _ => True) r s := by
  refine ⟨trivial, fun t _ => ⟨fun _ _ => trivial, fun result s' hs => ?_⟩⟩
  cases result with
  | ok u => trivial
  | error e => exact hF.store _ e r s s' hs

theorem Admitted.advances (hF : Admitted w plan F) {op : Dialogue (Except ε Unit)} {q : Question}
    {made : Except ε Unit → Exchange} {wrap : ε → Failure} (hop : Asks op q made)
    (hwrap : ∀ e, (wrap e).isStepFailure = true) :
    Advances w (fun _ => True) F plan progress stage op wrap (fun _ _ _ => True) r s :=
  hop.advances (fun _ _ => trivial) (fun e _ _ => hF.step _ _ _ (hwrap e)) fun _ _ =>
    reached_anyway fun _ => hF.completed

theorem Admitted.pin (hF : Admitted w plan F) (hw : w.Quiet) :
    Step.Holds w (fun _ => True) F (pin (.asked environment packages) plan progress) (fun _ _ _ => True) r s :=
  holds_pin hw trivial (fun _ _ => reached_anyway fun _ => trivial) fun revision _ _ =>
    hF.advances (asks_checkout _ revision) fun _ => rfl

theorem Admitted.sync (hF : Admitted w plan F) (hw : w.Quiet) :
    Step.Holds w (fun _ => True) F (sync (.asked environment packages) plan progress) (fun _ _ _ => True) r s :=
  holds_sync hw trivial (fun _ _ => reached_anyway fun _ => trivial) fun _ _ =>
    hF.advances (asks_pull _) fun _ => rfl

theorem Admitted.provision (hF : Admitted w plan F) (hw : w.Quiet) {p : Provisioner Dialogue} {q : Question}
    {made : Except ProvisionFailure Unit → Exchange} (hop : Asks p.setup q made) {wrap : ProvisionFailure → Failure}
    (hwrap : ∀ e, (wrap e).isStepFailure = true) (title : String) :
    Step.Holds w (fun _ => True) F (provision (.asked environment packages) plan progress p stage wrap title)
      (fun _ _ _ => True) r s :=
  holds_provision hw trivial (fun _ _ => reached_anyway fun _ => trivial) fun _ => hF.advances hop hwrap

theorem Admitted.prepare (hF : Admitted w plan F) (hw : w.Quiet) :
    Step.Holds w (fun _ => True) F (prepare (.asked environment packages) plan) (fun _ _ _ => True) r s := by
  refine holds_prepare hw (keeps_anyway fun result s => ?_) (fun _ _ _ (_ : True) => hF.pin hw)
    (fun _ _ _ _ => hF.sync hw) (fun _ _ _ title _ => hF.provision hw asks_setupEnvironment (fun _ => rfl) title)
    (fun _ _ _ title _ => hF.provision hw asks_setupPackages (fun _ => rfl) title)
  cases result with
  | ok u => exact holds_acquire_anyway hw (fun _ _ => hF.step _ _ _ rfl) fun _ _ _ _ => hF.completed
  | error e => exact hF.step _ _ _ rfl

theorem Admitted.configure (hF : Admitted w plan F) (hw : w.Quiet) :
    Step.Holds w (fun _ => True) F (configure (.asked environment packages) plan progress) (fun _ _ _ => True) r s := by
  refine holds_configure hw (fun _ _ => reached_anyway fun _ => trivial) fun tool _ => ?_
  refine keeps_anyway fun result s => ?_
  cases result with
  | ok changed =>
    rw [Applied]
    exact reached_anyway fun _ => hF.completed
  | error failure =>
    rw [Applied]
    split
    · exact ⟨trivial, fun _ => reached_anyway fun _ => trivial⟩
    · exact hF.step _ _ _ rfl

/-- How a run ends whose failures are admitted. -/
def EndsAdmitted (F : Failure → Report → S → Prop) : Except Failure Unit × Report → S → Prop
  | (.ok _, report), _ => report.stage = .done
  | (.error f, report), s => report.stage = .failed f.kind ∧ F f report s

theorem Admitted.keeps_run (hF : Admitted w plan F) (hreport : ∀ f r r' s, F f r s → F f r' s) (hw : w.Quiet) :
    (run (.asked environment packages) plan r).Keeps w (fun _ => True) (EndsAdmitted F) s := by
  have hstages : Step.Holds w (fun _ => True) F (stages (.asked environment packages) plan) (fun _ _ _ => True)
      r s := by
    rw [stages_eq, holds_bind]
    exact (hF.prepare hw).mono fun _ _ _ _ => hF.configure hw
  refine Procedure.keeps_run (Keeps.mono hstages fun out s hout => ?_)
  obtain ⟨result, r⟩ := out
  cases result with
  | ok u => exact keeps_anyway fun _ _ => keeps_anyway fun _ _ => rfl
  | error f => exact ⟨rfl, hreport f r _ s hout⟩

end

end Procedure

/-! ## Refusals on a host -/

/-- No file is changed. -/
def HostM.Still {α : Type} (x : HostM α) : Prop := ∀ h : Host, h.SameFiles (x.run h).2

theorem HostM.closed_still : Closed @Still :=
  closed_of_relation (R := Host.SameFiles) (fun _ _ _ _ _ => ⟨rfl, rfl⟩) fun _ _ _ => .trans

/-- The record that is refused in an exchange, and why. -/
def Exchange.refusal : Exchange → Option (Path × IoError)
  | ⟨.store checkout _, some (.error e)⟩ => some (checkout, e)
  | _ => none

/-- Surroundings that remember a refusal until something else is asked. -/
def refusals : Surroundings (Option (Path × IoError)) := fun s e s' =>
  s' = if e.question.isQuiet then s else e.refusal

theorem quiet_refusals : refusals.Quiet := by
  intro s q a s' hq hs
  rw [refusals] at hs
  rw [hs, if_pos hq]

/-- The host refuses the record that is remembered as refused. -/
def Host.Bears (h : Host) (s : Option (Path × IoError)) : Prop :=
  ∀ checkout e, s = some (checkout, e) → h.Refuses checkout e

theorem bears_answer (plan : Plan) (quiet : Bool) (q : Question) (v : Host) (s : Option (Path × IoError))
    (hv : v.Bears s) :
    ∃ s', refusals s ⟨q, some (((Collaborators.ofPlan plan quiet).answer q).run v).1⟩ s' ∧
      (((Collaborators.ofPlan plan quiet).answer q).run v).2.Bears s' := by
  have hstill : ∀ {α : Type} {x : HostM α}, HostM.Still x → (x.run v).2.Bears s := fun hx checkout e hs =>
    (hv checkout e hs).sameFiles (hx v)
  cases q with
  | now => exact ⟨s, rfl, hstill HostM.closed_still.now⟩
  | banner message => exact ⟨s, rfl, hstill (HostM.closed_still.banner quiet message)⟩
  | log level message =>
    refine ⟨_, rfl, ?_⟩
    split
    · exact hstill (HostM.closed_still.log _ _ _)
    · rintro _ _ ⟨⟩
  | store checkout p =>
    refine ⟨_, rfl, ?_⟩
    have hanswer : (Collaborators.ofPlan plan quiet).answer (.store checkout p) = Progress.save checkout p := by
      simp only [Collaborators.answer, Collaborators.ofPlan, Workspace.onHost]
    rw [hanswer]
    have hsaved := Progress.saved_save checkout p v
    generalize (Progress.save checkout p).run v = out at hsaved
    obtain ⟨stored, v'⟩ := out
    cases hsaved with
    | absent => rintro _ _ ⟨⟩
    | written => rintro _ _ ⟨⟩
    | refused hrefuses =>
      rintro _ _ ⟨⟩
      exact hrefuses
  | _ =>
    refine ⟨none, rfl, ?_⟩
    rintro _ _ ⟨⟩

/-! ## A run in an accepted work tree -/

namespace Procedure

variable {c : Collaborators HostM} {quiet : Bool} {plan : Plan} {r : Report} {h h₁ : Host}

theorem run_attempt_ok {ε α : Type} {wrap : ε → Failure} {op : HostM (Except ε α)} {a : α} (r : Report)
    (hop : op.run h = (.ok a, h₁)) : ((attempt wrap op).run.run r).run h = ((.ok a, r), h₁) := by
  rw [attempt, run_bind_ok (run_call_on_host ..), hop]
  rfl

theorem run_takeUp_on_host (hc : c.workspace = .onHost quiet) (plan : Plan) (r : Report) (h : Host) :
    ∃ progress h', ((takeUp c plan).run.run r).run h = ((.ok progress, r), h') ∧ h.SameFiles h' := by
  have hover : ∀ v, h.SameFiles v → ∃ progress v', ((startOver c plan).run.run r).run v = ((.ok progress, r), v') ∧
      h.SameFiles v' := by
    intro v hv
    rw [startOver, run_bind_ok (run_call_on_host ..), hc]
    exact ⟨_, _, rfl, hv.trans (HostM.closed_still.now v)⟩
  have hlog : ∀ level message (v : Host), v.SameFiles ((c.workspace.log level message).run v).2 := by
    intro level message v
    rw [hc]
    exact Progress.sameFiles_log level logTarget message v
  have hload : h.SameFiles ((c.workspace.load plan.checkout).run h).2 := by
    rw [hc]
    exact HostM.closed_still.load plan.checkout h
  rw [takeUp, run_bind_ok (run_call_on_host ..)]
  generalize (c.workspace.load plan.checkout).run h = out at hload
  obtain ⟨loaded, h₁⟩ := out
  cases loaded with
  | none => exact hover h₁ hload
  | some progress =>
    dsimp only
    split
    · exact ⟨progress, h₁, rfl, hload⟩
    · rw [run_bind_ok (run_call_on_host ..)]
      exact hover _ (hload.trans (hlog ..))

/-- A work tree is taken over without a change to its files. -/
theorem run_acquire_resumed (hc : c.workspace = .onHost quiet) (hresume : plan.rerunPolicy = .resume)
    (hpresent : h.files.present h.cwd plan.checkout = true)
    (htree : (c.source.isWorkTree plan.checkout).run h = (true, h₁)) (r : Report) :
    ∃ progress h', ((acquire c plan).run.run r).run h =
        ((.ok progress, r.record .cloned .skipped (some "existing checkout")), h') ∧ h₁.SameFiles h' := by
  have hlog : ∀ level message (v : Host), v.SameFiles ((c.workspace.log level message).run v).2 := by
    intro level message v
    rw [hc]
    exact Progress.sameFiles_log level logTarget message v
  have hthere : (c.workspace.present plan.checkout).run h = (true, h) := by
    rw [hc, ← hpresent]
    rfl
  unfold acquire
  rw [run_bind_ok (run_call_on_host ..), hthere]
  simp only [if_true, hresume, reduceCtorEq, if_false]
  rw [run_bind_ok (run_call_on_host ..), htree]
  simp only [Bool.not_true, Bool.false_eq_true, if_false]
  rw [run_bind_ok (run_call_on_host ..), run_bind_ok (run_reach_on_host c ..)]
  obtain ⟨progress, h', hrun, hfiles⟩ := run_takeUp_on_host hc plan
    (r.record .cloned .skipped (some "existing checkout"))
    ((c.workspace.log .debug (transition r .cloned .skipped)).run
      ((c.workspace.log .info s!"Resuming in existing checkout {plan.checkout.text}").run h₁).2).2
  exact ⟨progress, h', hrun, ((hlog ..).trans (hlog ..)).trans hfiles⟩

/-- A record that cannot be stored ends a run that has taken over a work tree, before anything else is done. -/
theorem run_of_refuses {e : IoError} {h₂ : Host} (hc : c.workspace = .onHost quiet)
    (hresume : plan.rerunPolicy = .resume) (havailable : c.source.ensureAvailable.run h = (.ok (), h₁))
    (hpresent : h₁.files.present h₁.cwd plan.checkout = true)
    (htree : (c.source.isWorkTree plan.checkout).run h₁ = (true, h₂)) (hrefuses : h₂.Refuses plan.checkout e) :
    ∃ report h', (run c plan (.ofPlan plan)).run h = ((.error (.io e), report), h') ∧
      report.stages = [⟨.cloned, .skipped, some "existing checkout"⟩] := by
  obtain ⟨progress, h₃, hacquire, hfiles⟩ := run_acquire_resumed hc hresume hpresent htree (.ofPlan plan)
  obtain ⟨t, h₄, stored, h₅, hclock, hstore, hcomplete⟩ := run_complete_on_host hc plan progress .cloned
    ((Report.ofPlan plan).record .cloned .skipped (some "existing checkout")) h₃
  rw [Progress.save_of_refuses (hrefuses.sameFiles (hfiles.trans hclock))] at hstore
  cases hstore
  have hprepare : ((prepare c plan).run.run (.ofPlan plan)).run h =
      ((.error (.io e), (Report.ofPlan plan).record .cloned .skipped (some "existing checkout")), h₄) := by
    rw [prepare, run_bind_ok (run_attempt_ok _ havailable), run_bind_ok hacquire, run_bind_error hcomplete]
  have hstages := run_bind_error (f := configure c plan) hprepare
  rw [← stages_eq] at hstages
  obtain ⟨report, h', hrun, rfl, _⟩ := run_of_stages plan hstages
  exact ⟨_, h', hrun, rfl⟩

end Procedure

/-- A run by the plan would take over the checkout: source control can be used, and the checkout is a work tree. -/
def Plan.accepts (plan : Plan) : HostM Bool := do
  match ← Git.ensureAvailable "git" with
  | .error _ => return false
  | .ok _ => if ← HostM.present plan.checkout then Git.isWorkTree "git" plan.checkout else return false

theorem Plan.run_accepts {plan : Plan} {h h₂ : Host} (haccepts : plan.accepts.run h = (true, h₂)) :
    ∃ h₁, (Git.ensureAvailable "git").run h = (.ok (), h₁) ∧ h₁.files.present h₁.cwd plan.checkout = true ∧
      (Git.isWorkTree "git" plan.checkout).run h₁ = (true, h₂) := by
  rw [accepts, HostM.run_bind] at haccepts
  cases havailable : (Git.ensureAvailable "git").run h with
  | mk result h₁ =>
    rw [havailable] at haccepts
    cases result with
    | error e => cases haccepts
    | ok u =>
      dsimp only at haccepts
      rw [HostM.run_bind, HostM.run_present] at haccepts
      dsimp only at haccepts
      split at haccepts
      · next hpresent => exact ⟨h₁, rfl, hpresent, haccepts⟩
      · cases haccepts

theorem Plan.carryOut_refused (plan : Plan) (quiet : Bool) (h : Host) :
    ∃ result report h', (plan.carryOut quiet).run h = ((result, report), h') ∧
      (result = .ok () ∧ report.stage = .done ∨
        ∃ f, result = .error f ∧ report.stage = .failed f.kind ∧
          (f.isStepFailure = true ∨ ∃ e, f = .io e ∧ h'.Refuses plan.checkout e)) := by
  have hadmitted : Procedure.Admitted refusals plan fun f _ s =>
      f.isStepFailure = true ∨ ∃ e, f = .io e ∧ s = some (plan.checkout, e) :=
    ⟨fun _ _ _ hstep => .inl hstep, fun _ e _ _ _ hs => .inr ⟨e, rfl, hs⟩⟩
  have hkeeps : (Procedure.run (Procedure.questions (.ofPlan plan quiet)) plan (.ofPlan plan)).Keeps refusals
      (fun _ => True) (Procedure.EndsAdmitted fun f _ s =>
        f.isStepFailure = true ∨ ∃ e, f = .io e ∧ s = some (plan.checkout, e)) none :=
    hadmitted.keeps_run (fun _ _ _ _ hfailed => hfailed) quiet_refusals
  have hstart : h.Bears none := by rintro _ _ ⟨⟩
  obtain ⟨s, hends, hbears⟩ := hkeeps.hold (bears_answer plan quiet) hstart
  rw [Procedure.hold_run] at hends hbears
  change Procedure.EndsAdmitted _ ((plan.carryOut quiet).run h).1 s at hends
  change ((plan.carryOut quiet).run h).2.Bears s at hbears
  generalize (plan.carryOut quiet).run h = out at hends hbears
  obtain ⟨⟨result, report⟩, h'⟩ := out
  refine ⟨result, report, h', rfl, ?_⟩
  cases result with
  | ok u => exact .inl ⟨rfl, hends⟩
  | error f =>
    obtain ⟨hstage, hfailed⟩ := hends
    refine .inr ⟨f, rfl, hstage, hfailed.imp_right ?_⟩
    rintro ⟨e, hio, hs⟩
    exact ⟨e, hio, hbears _ _ hs⟩

/-- How a run ends in a work tree that it has taken over. Its failures are those of a step, and refusals of the record
where that cannot be written. If a file stands at the directory of source control, as in a linked work tree, the first
record is refused, and nothing is done. -/
theorem resumed_run_stops_where_record_is_refused (plan : Plan) (quiet : Bool) {h h₁ : Host}
    (hresume : plan.rerunPolicy = .resume) (haccepts : plan.accepts.run h = (true, h₁)) :
    ∃ result report h', (plan.carryOut quiet).run h = ((result, report), h') ∧
      (result = .ok () ∧ report.stage = .done ∨
        ∃ f, result = .error f ∧ report.stage = .failed f.kind ∧
          (f.isStepFailure = true ∨ ∃ e, f = .io e ∧ h'.Refuses plan.checkout e)) ∧
      (h₁.files.isFile h₁.cwd (Progress.directory plan.checkout) = true →
        ∃ e, result = .error (.io e) ∧ report.stages = [⟨.cloned, .skipped, some "existing checkout"⟩]) ∧
      ∀ p v, Progress.Saved plan.checkout p v ((Progress.save plan.checkout p).run v).1
          ((Progress.save plan.checkout p).run v).2 ∧
        (v.files.isFile v.cwd (Progress.directory plan.checkout) = true →
          ∃ e, (Progress.save plan.checkout p).run v = (.error e, v)) := by
  obtain ⟨result, report, h', hrun, hends⟩ := plan.carryOut_refused quiet h
  refine ⟨result, report, h', hrun, hends, fun hfile => ?_, fun p v => ⟨Progress.saved_save .., fun hfile => ?_⟩⟩
  · obtain ⟨e, hrefuses⟩ := Progress.refuses_of_isFile hfile
    obtain ⟨h₀, havailable, hpresent, htree⟩ := Plan.run_accepts haccepts
    obtain ⟨report', _, hrun', hstages⟩ := Procedure.run_of_refuses (c := .ofPlan plan quiet) rfl hresume havailable
      hpresent htree hrefuses
    cases hrun.symm.trans hrun'
    exact ⟨e, rfl, hstages⟩
  · obtain ⟨e, hrefuses⟩ := Progress.refuses_of_isFile hfile
    exact ⟨e, Progress.save_of_refuses hrefuses p⟩

/-- A host with a work tree whose directory of source control is elsewhere. -/
def linkedHost : Host where
  files := ⟨[(["angr"], .directory), (["angr", ".git"], .file (encode "gitdir: ../.git/worktrees/angr\n")),
    (["angr", "env.sh"], .file []), (["angr", "packages.sh"], .file []), (["bin"], .directory),
    (["bin", "bash"], .program [] true),
    (["bin", "git"], .program [
      { args := some [some "rev-parse", some "--is-inside-work-tree"], stdout := encode "true\n" }] true)]⟩

theorem resumed_run_on_linked_work_tree :
    ∃ h₁, (pinnedPlan "v1").rerunPolicy = .resume ∧ (pinnedPlan "v1").accepts.run linkedHost = (true, h₁) ∧
      h₁.files.isFile h₁.cwd (Progress.directory (pinnedPlan "v1").checkout) = true ∧
      ∃ e report h', ((pinnedPlan "v1").carryOut true).run linkedHost = ((.error (.io e), report), h') ∧
        h'.Refuses (pinnedPlan "v1").checkout e ∧
        report.stages = [⟨.cloned, .skipped, some "existing checkout"⟩] := by
  obtain ⟨h₁, haccepts, hfile⟩ : ∃ h₁, (pinnedPlan "v1").accepts.run linkedHost = (true, h₁) ∧
      h₁.files.isFile h₁.cwd (Progress.directory (pinnedPlan "v1").checkout) = true :=
    ⟨_, Prod.ext (by decide +kernel) rfl, by decide +kernel⟩
  obtain ⟨result, report, h', hrun, hends, hlinked, _⟩ :=
    resumed_run_stops_where_record_is_refused (pinnedPlan "v1") true rfl haccepts
  obtain ⟨e, rfl, hstages⟩ := hlinked hfile
  refine ⟨h₁, rfl, haccepts, hfile, e, report, h', hrun, ?_, hstages⟩
  rcases hends with ⟨hok, _⟩ | ⟨f, hf, _, hstep | ⟨e', hio, hrefuses⟩⟩
  · cases hok
  · cases hf
    cases hstep
  · cases hf
    cases hio
    exact hrefuses

/-- A run takes over a linked work tree and fails there, and not in a step: its progress cannot be recorded. -/
theorem linked_work_tree_stops_run :
    (pinnedPlan "v1").rerunPolicy = .resume ∧ ((pinnedPlan "v1").accepts.run linkedHost).1 = true ∧
      (((pinnedPlan "v1").carryOut true).run linkedHost).1.1 = .error (.io .notADirectory) := by
  decide +kernel

end Bringup
