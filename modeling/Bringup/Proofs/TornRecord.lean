import Bringup.Proofs.StatusProgress

/-!
# Torn records

Storing writes the record in place, so a run that is broken off can leave any beginning of its text.

* `Plan.PassesOver`: the stages that a run may skip by its plan alone.
* `SkipsOnly`: every other stage that was skipped was taken over from the record.
* `torn_record_starts_over`: nothing is loaded from a torn record, and the run skips nothing because of it.
-/

namespace Bringup

set_option autoImplicit false

open Bringup.Text Utf8
open Procedure Dialogue

/-- A run may skip the stage whatever earlier runs have completed. -/
def Plan.PassesOver (plan : Plan) : Stage → Prop
  | .cloned => plan.rerunPolicy ≠ .fail
  | .pinned => pinnedRevision plan = none
  | .synced => plan.syncPolicy = .pinned
  | .configured => plan.disassembler = none ∨ plan.disassemblerDetected = true
  | _ => False

/-- A stage of the report was skipped only if it was taken over, or by the plan. -/
def SkipsOnly (plan : Plan) (taken : List Stage) (r : Report) : Prop :=
  ∀ record ∈ r.stages, record.outcome = .skipped → record.stage ∈ taken ∨ plan.PassesOver record.stage

/-- This holds of the report so far, and of the stages in `rest` the progress marks only what was taken over. -/
structure Reuses (plan : Plan) (taken rest : List Stage) (p : Progress) (r : Report) : Prop where
  report : SkipsOnly plan taken r
  marks : ∀ stage ∈ rest, stage ∈ p.completed → stage ∈ taken

section

variable {S : Type} {w : Surroundings S} {s : S} {plan : Plan} {taken rest : List Stage} {p : Progress} {r : Report}
  {stage : Stage} {ε : Type}

theorem skipsOnly_of_nil (hnone : r.stages = []) : SkipsOnly plan taken r := by
  intro record hmem
  simp [hnone] at hmem

theorem SkipsOnly.record (h : SkipsOnly plan taken r) {outcome : Outcome} {note : Option String}
    (hrecord : outcome = .skipped → stage ∈ taken ∨ plan.PassesOver stage) :
    SkipsOnly plan taken (r.record stage outcome note) := by
  intro record hmem hskipped
  rcases List.mem_append.mp hmem with hold | hnew
  · exact h record hold hskipped
  · obtain rfl := List.mem_singleton.mp hnew
    exact hrecord hskipped

theorem SkipsOnly.ran (h : SkipsOnly plan taken r) (stage : Stage) (note : Option String) :
    SkipsOnly plan taken (r.record stage .ran note) :=
  h.record fun hran => by cases hran

theorem Reuses.completed (h : Reuses plan taken rest p r) (hstage : stage ∉ rest) :
    Completed w (fun _ => True) (fun _ r _ => SkipsOnly plan taken r) plan p stage
      (fun p r _ => Reuses plan taken rest p r) r s := by
  refine ⟨trivial, fun t _ => keeps_anyway fun result s => ?_⟩
  cases result with
  | error e => exact h.report
  | ok u =>
    refine ⟨h.report, fun other hother hmarked => ?_⟩
    have hne : other ≠ stage := fun heq => hstage (heq ▸ hother)
    rw [Progress.mem_mark, or_iff_left hne] at hmarked
    exact h.marks other hother hmarked

theorem Reuses.advances (h : Reuses plan taken (stage :: rest) p r) (hstage : stage ∉ rest)
    {op : Dialogue (Except ε Unit)} {q : Question} {made : Except ε Unit → Exchange} {wrap : ε → Failure}
    (hop : Asks op q made) :
    Advances w (fun _ => True) (fun _ r _ => SkipsOnly plan taken r) plan p stage op wrap
      (fun p r _ => Reuses plan taken rest p r) r s := by
  refine hop.advances (fun _ _ => trivial) (fun _ _ _ => h.report) fun _ _ => reached_anyway fun _ => ?_
  have hran : Reuses plan taken rest p (r.record stage .ran none) :=
    ⟨h.report.ran stage none, fun other hother => h.marks other (List.mem_cons_of_mem _ hother)⟩
  exact hran.completed hstage

/-- A stage is skipped by the plan or because it is marked, and then it was taken over. -/
theorem Reuses.skips (h : Reuses plan taken (stage :: rest) p r) (note : Option String)
    (hskip : plan.PassesOver stage ∨ p.isComplete stage = true) :
    Reached w (fun _ => True) stage .skipped note (fun r _ => Reuses plan taken rest p r) r s := by
  have honly : stage ∈ taken ∨ plan.PassesOver stage := by
    rcases hskip with hplan | hdone
    · exact .inr hplan
    · exact .inl (h.marks stage List.mem_cons_self (List.contains_iff_mem.mp hdone))
  refine reached_anyway fun _ => ⟨h.report.record fun _ => honly, fun other hother => ?_⟩
  exact h.marks other (List.mem_cons_of_mem _ hother)

variable {environment packages : String}

theorem Reuses.pin (hw : w.Quiet) (h : Reuses plan taken (.pinned :: rest) p r) (hstage : .pinned ∉ rest) :
    Step.Holds w (fun _ => True) (fun _ r _ => SkipsOnly plan taken r) (pin (.asked environment packages) plan p)
      (fun p r _ => Reuses plan taken rest p r) r s :=
  holds_pin hw trivial (fun note hskip => h.skips note hskip) fun revision _ _ =>
    h.advances hstage (asks_checkout _ revision)

theorem Reuses.sync (hw : w.Quiet) (h : Reuses plan taken (.synced :: rest) p r) (hstage : .synced ∉ rest) :
    Step.Holds w (fun _ => True) (fun _ r _ => SkipsOnly plan taken r) (sync (.asked environment packages) plan p)
      (fun p r _ => Reuses plan taken rest p r) r s :=
  holds_sync hw trivial (fun note hskip => h.skips note hskip) fun _ _ => h.advances hstage (asks_pull _)

theorem Reuses.provision (hw : w.Quiet) (h : Reuses plan taken (stage :: rest) p r) (hstage : stage ∉ rest)
    {setup : Provisioner Dialogue} {q : Question} {made : Except ProvisionFailure Unit → Exchange}
    {wrap : ProvisionFailure → Failure} (hop : Asks setup.setup q made) {title : String} :
    Step.Holds w (fun _ => True) (fun _ r _ => SkipsOnly plan taken r)
      (Procedure.provision (.asked environment packages) plan p setup stage wrap title)
      (fun p r _ => Reuses plan taken rest p r) r s :=
  holds_provision hw trivial (fun note hdone => h.skips note (.inr hdone)) fun _ => h.advances hstage hop

theorem Reuses.configure (hw : w.Quiet) (h : Reuses plan taken [] p r) :
    Step.Holds w (fun _ => True) (fun _ r _ => SkipsOnly plan taken r) (configure (.asked environment packages) plan p)
      (fun _ r _ => SkipsOnly plan taken r) r s := by
  refine holds_configure hw (fun note htool => reached_anyway fun _ => ?_) fun tool _ => ?_
  · exact h.report.record fun _ => .inr (.inl htool)
  · refine keeps_anyway fun result s => ?_
    cases result with
    | ok changed =>
      rw [Applied]
      refine reached_anyway fun s => ?_
      have hstored : Reuses plan taken [] p (guided plan (some tool) none (r.record .configured .ran none)) :=
        ⟨h.report.ran .configured none, h.marks⟩
      exact (hstored.completed List.not_mem_nil).mono fun _ _ _ h => h.report
    | error failure =>
      rw [Applied]
      split
      · next hforgiven =>
        have hdetected : plan.disassemblerDetected = true := (Bool.and_eq_true_iff.mp hforgiven).2
        exact ⟨trivial, fun note => reached_anyway fun _ => h.report.record fun _ => .inr (.inr hdetected)⟩
      · exact h.report

end

/-! ## Runs in a checkout that is there -/

section

variable {plan : Plan} {found : Option Progress} {r : Report} {environment packages : String}

theorem reuses_takesUp {rest : List Stage} (h : SkipsOnly plan (reused plan found) r) (s : Bool) :
    TakesUp (fun _ => True) plan (fun p r _ => Reuses plan (reused plan found) rest p r) r found s := by
  have hfresh : ∀ t, Reuses plan (reused plan found) rest (.fresh plan.targetLabel t) r := fun t =>
    ⟨h, fun stage _ hmarked => absurd hmarked List.not_mem_nil⟩
  cases found with
  | none => exact ⟨trivial, hfresh⟩
  | some p =>
    rw [TakesUp]
    split
    · next htarget => exact ⟨h, fun stage _ hmarked => by rwa [reused_some, if_pos htarget]⟩
    · exact ⟨trivial, hfresh⟩

/-- A resumed run skips only what its plan passes over and what it takes over from the record. -/
theorem keeps_skipsOnly :
    (run (.asked environment packages) plan (.ofPlan plan)).Keeps (resumedMoves found plan.checkout) (fun _ => True)
      (fun out _ => SkipsOnly plan (reused plan found) out.2) true := by
  have hquiet := quiet_resumedMoves found plan.checkout
  have hnone : SkipsOnly plan (reused plan found) (.ofPlan plan) := skipsOnly_of_nil rfl
  have htaken : plan.PassesOver .cloned → TakesUp (fun _ => True) plan
      (fun p r _ => Reuses plan (reused plan found) [.pinned, .synced, .envReady, .pkgsReady] p r)
      ((Report.ofPlan plan).record .cloned .skipped (some "existing checkout")) found true := fun hcloned =>
    reuses_takesUp (hnone.record fun _ => .inr hcloned) true
  have hbegin := keeps_begin_resumed environment packages (F := fun _ r _ => SkipsOnly plan (reused plan found) r)
    (fun _ => hnone) fun hresume => (htaken hresume).mono fun _ h => h.completed (by decide)
  have hstages := holds_stages hquiet hbegin (fun _ _ _ h => h.pin hquiet (by decide))
    (fun _ _ _ h => h.sync hquiet (by decide))
    (fun _ _ _ _ h => h.provision hquiet (by decide) asks_setupEnvironment)
    (fun _ _ _ _ h => h.provision hquiet (by decide) asks_setupPackages) (fun _ _ _ h => h.configure hquiet)
  refine keeps_run (Keeps.mono hstages fun out s hout => ?_)
  obtain ⟨result, r⟩ := out
  cases result with
  | error f => exact hout
  | ok u =>
    have hdone : ∀ head, SkipsOnly plan (reused plan found) ({ r with head }.record .done .ran none) := fun head =>
      SkipsOnly.ran hout .done none
    exact keeps_anyway fun head _ => keeps_anyway fun _ _ => hdone head

theorem carryOut_skipsOnly {h : Host} (hdiscreet : h.Discreet)
    (hpresent : h.files.present h.cwd plan.checkout = true) (quiet : Bool) :
    SkipsOnly plan (reused plan (h.record plan.checkout)) ((plan.carryOut quiet).run h).1.2 := by
  have hkeeps : (run (questions (.ofPlan plan quiet)) plan (.ofPlan plan)).Keeps
      (resumedMoves (h.record plan.checkout) plan.checkout) (fun _ => True)
      (fun out _ => SkipsOnly plan (reused plan (h.record plan.checkout)) out.2) true := keeps_skipsOnly
  obtain ⟨_, honly, _⟩ := hkeeps.hold (R := fun v s => s = true → h.SameFiles v)
    (resumed_answer hdiscreet hpresent quiet) (fun _ => Host.SameFiles.refl h)
  rwa [hold_run] at honly

end

/-! ## A torn record -/

theorem takeUp_of_unrecorded {plan : Plan} {h h₁ : Host} (hload : (Progress.load plan.checkout).run h = (none, h₁))
    (quiet : Bool) (report : Report) :
    ((takeUp (Collaborators.ofPlan plan quiet) plan).run.run report).run h =
      ((.ok (.fresh plan.targetLabel (HostM.now.run h₁).1), report), (HostM.now.run h₁).2) := by
  have hanswer : (Collaborators.ofPlan plan quiet).workspace.load plan.checkout = Progress.load plan.checkout := by
    simp only [Collaborators.ofPlan, Workspace.onHost]
  rw [takeUp, run_bind, HostM.run_bind, run_call, HostM.run_bind, hanswer, hload]
  rfl

/-- A record of which only a beginning is there: nothing is loaded from it, a run that takes it up starts over at its
target, and on a host whose programs only tell something when they are asked, it skips no stage but by its plan. -/
theorem torn_record_starts_over {p : Progress} {plan : Plan} {h₀ h₀' h : Host} {whole part : Bytes}
    (hsave : (Progress.save plan.checkout p).run h₀ = (.ok (), h₀'))
    (hwhole : h₀'.recordBytes plan.checkout = some whole) (hpart : part <+: whole) (hne : part ≠ whole)
    (hfile : h.recordBytes plan.checkout = some part) :
    ∃ h₁, (Progress.load plan.checkout).run h = (none, h₁) ∧ h.SameFiles h₁ ∧
      (∀ quiet report, ((takeUp (Collaborators.ofPlan plan quiet) plan).run.run report).run h =
        ((.ok (.fresh plan.targetLabel (HostM.now.run h₁).1), report), (HostM.now.run h₁).2)) ∧
      (h.Discreet → h.files.present h.cwd plan.checkout = true →
        ∀ quiet, ∀ record ∈ ((plan.carryOut quiet).run h).1.2.stages,
          record.outcome = .skipped → plan.PassesOver record.stage) := by
  have htext : whole = encode p.text := by
    rw [Progress.recordBytes_save hsave, Option.ite_none_right_eq_some] at hwhole
    exact (Option.some.inj hwhole.2).symm
  rw [htext] at hpart hne
  have hnone : h.record plan.checkout = none := by
    rw [Host.record, hfile]
    exact recordOf_torn hpart hne
  cases hload : (Progress.load plan.checkout).run h with
  | mk loaded h₁ =>
    obtain ⟨hloaded, hfiles⟩ := Progress.load_eq hload
    obtain rfl : loaded = none := hloaded.trans hnone
    refine ⟨h₁, rfl, hfiles, takeUp_of_unrecorded hload, fun hdiscreet hpresent quiet record hmem hskipped => ?_⟩
    have honly := carryOut_skipsOnly hdiscreet hpresent quiet record hmem hskipped
    rw [hnone] at honly
    exact honly.resolve_left List.not_mem_nil

/-- A record with both setup steps, for a revision that is not plain ASCII. -/
def accentedRecord : Progress := ⟨"é1", [.envReady, .pkgsReady], epoch⟩

/-- What is there of it if it is cut within the first letter of its target. -/
def accentedPart : Bytes := (encode accentedRecord.text).take 16

/-- A host with some bytes as the record of the checkout. -/
def hostRecording (bytes : Bytes) : Host :=
  Progress.withRecord recordedHost ["fiber", ".git", "fiber-bootstrap.json"] bytes

/-- A plan for the same revision in that checkout. -/
def accentedPlan : Plan where
  __ := pinnedPlan "é1"
  checkout := ⟨"fiber"⟩
  environmentScript := "setup_angr_env.sh"
  packagesScript := "install_pkgs.sh"

theorem hasPlace_recordedHost :
    Progress.HasPlace accentedPlan.checkout recordedHost ["fiber", ".git", "fiber-bootstrap.json"] :=
  ⟨by decide +kernel, by decide +kernel, by decide +kernel⟩

theorem discreet_hostRecording (bytes : Bytes) : (hostRecording bytes).Discreet := by
  intro place node hnode
  by_cases hplace : place = (["fiber", ".git", "fiber-bootstrap.json"] : Place)
  · rw [hplace, hostRecording, Progress.withRecord, FileTree.get?_put_self _ (by decide)] at hnode
    cases hnode
    trivial
  · rw [hostRecording, Progress.withRecord, FileTree.get?_put_of_ne _ hplace] at hnode
    exact discreet_recordedHost place node hnode

/-- The cut leaves no text, and the setup steps are carried out again. With the whole record they are skipped. -/
theorem torn_record_starts_over_within_letter :
    decode? accentedPart = none ∧
      (∃ h₁, (Progress.load accentedPlan.checkout).run (hostRecording accentedPart) = (none, h₁)) ∧
      (∀ record ∈ ((accentedPlan.carryOut true).run (hostRecording accentedPart)).1.2.stages,
        record.outcome = .skipped → accentedPlan.PassesOver record.stage) ∧
      ⟨.envReady, .ran, none⟩ ∈ ((accentedPlan.carryOut true).run (hostRecording accentedPart)).1.2.stages ∧
      ⟨.envReady, .skipped, resumedNote⟩ ∈
        ((accentedPlan.carryOut true).run (hostRecording (encode accentedRecord.text))).1.2.stages := by
  have hsave := hasPlace_recordedHost.save accentedRecord
  have hwhole := hasPlace_recordedHost.recordBytes_withRecord (encode accentedRecord.text)
  have hfile := hasPlace_recordedHost.recordBytes_withRecord accentedPart
  obtain ⟨h₁, hload, _, _, hskips⟩ :=
    torn_record_starts_over hsave hwhole (List.take_prefix 16 _) (by decide +kernel) hfile
  have hpresent : (hostRecording accentedPart).files.present (hostRecording accentedPart).cwd accentedPlan.checkout =
    true := by decide +kernel
  exact ⟨by decide +kernel, ⟨h₁, hload⟩, hskips (discreet_hostRecording _) hpresent true, by decide +kernel,
    by decide +kernel⟩

end Bringup
