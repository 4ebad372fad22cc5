import Bringup.Proofs.Inquiries
import Bringup.Proofs.Skips
import Bringup.Proofs.StageOrder
import Bringup.Proofs.StatusReport

/-!
# The status and a resumed run

The status lists what the record of a checkout holds. A resumed run goes by the same record, but only if it was made
for the run's own target.

* `reused`: the stages that a run takes over from what it loads.
* `Told`, `Foretold`: a setup step is skipped exactly if it is one of them.
* `status_agrees_on_same_target`: so the two agree on a setup step exactly if the record has the run's target, or does
  not hold the step.
-/

namespace Bringup

set_option autoImplicit false

open Procedure Dialogue

/-- The stages that a run takes over from a record: those of a record with its own target. -/
def reused (plan : Plan) (found : Option Progress) : List Stage :=
  ((found.filter fun p => p.target = plan.targetLabel).map Progress.completed).getD []

theorem reused_some (plan : Plan) (p : Progress) :
    reused plan (some p) = if p.target = plan.targetLabel then p.completed else [] := by
  by_cases htarget : p.target = plan.targetLabel
  · simp [reused, Option.filter, htarget]
  · simp [reused, Option.filter, htarget]

theorem mem_reused {plan : Plan} {found : Option Progress} {stage : Stage} :
    stage ∈ reused plan found ↔
      stage ∈ (found.map Progress.completed).getD [] ∧ found.map Progress.target = some plan.targetLabel := by
  cases found with
  | none => simp [reused]
  | some p =>
    rw [reused_some]
    by_cases htarget : p.target = plan.targetLabel
    · simp [htarget]
    · simp [htarget]

/-- The stage that a run with such a failure ended at. -/
def FailureKind.stage? (kind : FailureKind) : Option Stage := kind.reached?.bind fun n => Stage.sequence[n]?

/-- The run got past the first `n` stages: they are recorded, and it did not end where the last of them is stored. -/
def GetsPast (n : Nat) (result : Except Failure Unit) (report : Report) : Prop :=
  n ≤ report.stages.length ∧ (report.stages.length = n → ∀ f, result = .error f → f.kind ≠ .io)

/-- The setup steps of a report were skipped if they are among the taken stages, and else carried out. -/
def Told (taken : List Stage) (r : Report) : Prop :=
  ∀ record ∈ r.stages, record.stage ∈ Stage.setups → (record.outcome = .skipped ↔ record.stage ∈ taken)

/-- So far the report tells which stages were taken over, and the progress tells it of those in `rest`. -/
structure Foretold (taken rest : List Stage) (p : Progress) (r : Report) : Prop where
  told : Told taken r
  marks : ∀ stage ∈ rest, stage ∈ p.completed ↔ stage ∈ taken

/-- A run that failed at a setup step had not taken it over. -/
structure Admits (taken : List Stage) (f : Failure) (r : Report) : Prop where
  told : Told taken r
  failed : ∀ stage ∈ Stage.setups, f.kind.stage? = some stage → stage ∉ taken

section

variable {S : Type} {w : Surroundings S} {s : S} {plan : Plan} {taken rest rest' : List Stage} {p : Progress}
  {r : Report} {stage : Stage} {ε : Type}

theorem Told.record (htold : Told taken r) {outcome : Outcome} {note : Option String}
    (hrecord : stage ∈ Stage.setups → (outcome = .skipped ↔ stage ∈ taken)) :
    Told taken (r.record stage outcome note) := by
  intro record hmem hsetup
  rcases List.mem_append.mp hmem with hold | hnew
  · exact htold record hold hsetup
  · obtain rfl := List.mem_singleton.mp hnew
    exact hrecord hsetup

theorem told_of_nil (hnone : r.stages = []) : Told taken r := by
  rw [Told, hnone]
  nofun

theorem Told.admits (htold : Told taken r) {f : Failure} (hkind : f.kind.stage?.any Stage.setups.contains = false) :
    Admits taken f r := by
  refine ⟨htold, fun stage hsetup hstage => ?_⟩
  rw [hstage, Option.any_some, List.contains_iff_mem.mpr hsetup] at hkind
  cases hkind

theorem Foretold.weaken (h : Foretold taken rest p r) (hrest : rest' ⊆ rest) : Foretold taken rest' p r :=
  ⟨h.told, fun stage hstage => h.marks stage (hrest hstage)⟩

theorem Foretold.completed (h : Foretold taken rest p r) (hstage : stage ∉ rest) :
    Completed w (fun _ => True) (fun f r _ => Admits taken f r) plan p stage (fun p r _ => Foretold taken rest p r)
      r s := by
  refine ⟨trivial, fun t _ => keeps_anyway fun result s => ?_⟩
  cases result with
  | error e => exact h.told.admits rfl
  | ok u =>
    refine ⟨h.told, fun other hother => ?_⟩
    have hne : other ≠ stage := fun heq => hstage (heq ▸ hother)
    rw [Progress.mem_mark, or_iff_left hne]
    exact h.marks other hother

theorem Foretold.advances (h : Foretold taken rest p r) (hstage : stage ∉ rest)
    (hran : stage ∈ Stage.setups → stage ∉ taken) {op : Dialogue (Except ε Unit)} {q : Question}
    {made : Except ε Unit → Exchange} {wrap : ε → Failure} (hop : Asks op q made)
    (hwrap : ∀ e, (wrap e).kind.stage? = some stage) :
    Advances w (fun _ => True) (fun f r _ => Admits taken f r) plan p stage op wrap
      (fun p r _ => Foretold taken rest p r) r s := by
  refine hop.advances (fun _ _ => trivial) (fun e _ _ => ⟨h.told, ?_⟩) fun _ _ => ?_
  · rintro other hsetup hother
    obtain rfl := Option.some.inj ((hwrap e).symm.trans hother)
    exact hran hsetup
  · have htold : Told taken (r.record stage .ran none) :=
      h.told.record fun hsetup => ⟨nofun, fun htaken => absurd htaken (hran hsetup)⟩
    exact reached_anyway fun _ => Foretold.completed ⟨htold, h.marks⟩ hstage

variable {environment packages : String}

theorem Foretold.pin (hw : w.Quiet) (h : Foretold taken Stage.setups p r) :
    Step.Holds w (fun _ => True) (fun f r _ => Admits taken f r) (pin (.asked environment packages) plan p)
      (fun p r _ => Foretold taken Stage.setups p r) r s := by
  refine holds_pin hw trivial (fun note _ => reached_anyway fun _ => ⟨h.told.record ?_, h.marks⟩) ?_
  · exact fun hsetup => absurd hsetup (by decide)
  · intro revision _ _
    exact h.advances (by decide) (fun hsetup => absurd hsetup (by decide)) (asks_checkout _ revision) fun _ => rfl

theorem Foretold.sync (hw : w.Quiet) (h : Foretold taken Stage.setups p r) :
    Step.Holds w (fun _ => True) (fun f r _ => Admits taken f r) (sync (.asked environment packages) plan p)
      (fun p r _ => Foretold taken Stage.setups p r) r s := by
  refine holds_sync hw trivial (fun note _ => reached_anyway fun _ => ⟨h.told.record ?_, h.marks⟩) fun _ _ => ?_
  · exact fun hsetup => absurd hsetup (by decide)
  · exact h.advances (by decide) (fun hsetup => absurd hsetup (by decide)) (asks_pull _) fun _ => rfl

/-- A setup step is skipped if the progress marks it, and that is if it was taken over. -/
theorem Foretold.provision (hw : w.Quiet) (h : Foretold taken (stage :: rest) p r) (hstage : stage ∉ rest)
    {setup : Provisioner Dialogue} {q : Question} {made : Except ProvisionFailure Unit → Exchange}
    {wrap : ProvisionFailure → Failure} (hop : Asks setup.setup q made)
    (hwrap : ∀ e, (wrap e).kind.stage? = some stage) {title : String} :
    Step.Holds w (fun _ => True) (fun f r _ => Admits taken f r)
      (Procedure.provision (.asked environment packages) plan p setup stage wrap title)
      (fun p r _ => Foretold taken rest p r) r s := by
  have hrest : Foretold taken rest p r := h.weaken (List.subset_cons_self _ _)
  have hmarks : stage ∈ p.completed ↔ stage ∈ taken := h.marks stage List.mem_cons_self
  refine holds_provision hw trivial (fun note hdone => reached_anyway fun _ => ?_) fun hdone => ?_
  · have htaken : stage ∈ taken := hmarks.mp (List.contains_iff_mem.mp hdone)
    exact ⟨h.told.record fun _ => ⟨fun _ => htaken, fun _ => rfl⟩, hrest.marks⟩
  · have htaken : stage ∉ taken := fun htaken => Progress.not_mem_of_isComplete hdone (hmarks.mpr htaken)
    exact hrest.advances hstage (fun _ => htaken) hop hwrap

theorem Foretold.configure (hw : w.Quiet) (h : Foretold taken [] p r) :
    Step.Holds w (fun _ => True) (fun f r _ => Admits taken f r) (configure (.asked environment packages) plan p)
      (fun _ r _ => Told taken r) r s := by
  have htold : ∀ outcome note, Told taken (r.record .configured outcome note) := fun outcome note =>
    h.told.record fun hsetup => absurd hsetup (by decide)
  refine holds_configure hw (fun note _ => reached_anyway fun _ => htold _ _) fun tool _ => ?_
  refine keeps_anyway fun result s => ?_
  cases result with
  | ok changed =>
    rw [Applied]
    refine reached_anyway fun s => ?_
    have hstored : Foretold taken [] p (guided plan (some tool) none (r.record .configured .ran none)) :=
      ⟨htold _ _, fun _ hnone => absurd hnone List.not_mem_nil⟩
    exact (hstored.completed (by decide)).mono fun _ _ _ h => h.told
  | error failure =>
    rw [Applied]
    split
    · exact ⟨trivial, fun note => reached_anyway fun _ => htold _ _⟩
    · exact h.told.admits (by cases failure <;> rfl)

end

/-! ## Taking up the record -/

/-- Surroundings of a run in a checkout that is there. The state says whether the files are still those of the
beginning. Questions that only look at something leave them so. As long as they are, the checkout is found, and its
record is the one of the beginning. -/
def resumedMoves (found : Option Progress) (checkout : Path) : Surroundings Bool := fun s e s' =>
  match e with
  | ⟨.present path, some there⟩ => s' = s ∧ (s = true → path = checkout → there = true)
  | ⟨.load path, some loaded⟩ => s' = s ∧ (s = true → path = checkout → loaded = found)
  | ⟨.ensureAvailable, _⟩ => s' = s
  | ⟨.isWorkTree _, _⟩ => s' = s
  | ⟨.now, _⟩ => s' = s
  | ⟨.log _ _, _⟩ => s' = s
  | ⟨.banner _, _⟩ => s' = s
  | _ => True

theorem quiet_resumedMoves (found : Option Progress) (checkout : Path) : (resumedMoves found checkout).Quiet := by
  intro s q a s' hq hmoves
  cases q with
  | now => exact hmoves
  | banner message => exact hmoves
  | log level message => exact hmoves
  | _ => cases hq

section

variable {plan : Plan} {found : Option Progress} {r : Report} {environment packages : String}

theorem foretold_takesUp (htold : Told (reused plan found) r) (s : Bool) :
    TakesUp (fun _ => True) plan (fun p r _ => Foretold (reused plan found) Stage.setups p r) r found s := by
  cases found with
  | none => exact ⟨trivial, fun t => ⟨htold, fun _ _ => Iff.rfl⟩⟩
  | some p =>
    rw [TakesUp]
    by_cases htarget : p.target = plan.targetLabel
    · rw [if_pos htarget]
      exact ⟨htold, fun _ _ => by rw [reused_some, if_pos htarget]⟩
    · rw [if_neg htarget]
      exact ⟨trivial, fun t => ⟨htold, fun _ _ => by rw [reused_some, if_neg htarget]; rfl⟩⟩

theorem keeps_resumed {q : Question} {Q : q.Answer → Bool → Prop} {P : q.Answer → Prop}
    (hq : ∀ a s, resumedMoves found plan.checkout true ⟨q, some a⟩ s → s = true ∧ P a) (hQ : ∀ a, P a → Q a true) :
    (ask q ends).Keeps (resumedMoves found plan.checkout) (fun _ => True) Q true := by
  refine ⟨fun _ _ => trivial, fun a s hmoves => ?_⟩
  obtain ⟨rfl, ha⟩ := hq a s hmoves
  exact hQ a ha

/-- The beginning of a resumed run: an acquisition fails, or the run goes on from the record of the beginning. -/
theorem keeps_begin_resumed (environment packages : String) {F : Failure → Report → Bool → Prop}
    {A : Progress → Report → Bool → Prop} (hfailed : ∀ e, F (.acquisition e) r true)
    (htaken : plan.rerunPolicy ≠ .fail → TakesUp (fun _ => True) plan
      (Completed (resumedMoves found plan.checkout) (fun _ => True) F plan · .cloned A)
      (r.record .cloned .skipped (some "existing checkout")) found true) :
    (ask .ensureAvailable ends).Keeps (resumedMoves found plan.checkout) (fun _ => True)
      (Tried .acquisition
        (fun _ s => Step.Holds (resumedMoves found plan.checkout) (fun _ => True) F
          (acquire (.asked environment packages) plan)
          (Completed (resumedMoves found plan.checkout) (fun _ => True) F plan · .cloned A) r s)
        (fun f s => F f r s)) true := by
  refine keeps_resumed (P := fun _ => True) (fun _ _ hmoves => ⟨hmoves, trivial⟩) fun result _ => ?_
  cases result with
  | error e => exact hfailed e
  | ok u =>
    rw [Tried]
    refine holds_acquire (quiet_resumedMoves _ _) (keeps_resumed (P := fun there => there = true)
      (fun _ _ hmoves => ⟨hmoves.1, hmoves.2 rfl rfl⟩) fun there hthere => ?_)
    rw [if_pos hthere, Resumes]
    split
    · exact fun _ => hfailed _
    · next hresume =>
      refine keeps_resumed (P := fun _ => True) (fun _ _ hmoves => ⟨hmoves, trivial⟩) fun isTree _ => ?_
      split
      · refine ⟨trivial, keeps_resumed (P := fun _ => True) (fun _ _ hmoves => ⟨hmoves, trivial⟩) fun _ _ => ?_⟩
        refine keeps_resumed (P := fun loaded => loaded = found) (fun _ _ hmoves => ⟨hmoves.1, hmoves.2 rfl rfl⟩) ?_
        rintro _ rfl
        exact htaken hresume
      · exact fun _ => hfailed _

/-- What a resumed run tells of the setup steps in the end. -/
structure TellsReused (taken : List Stage) (result : Except Failure Unit) (report : Report) : Prop where
  told : Told taken report
  failed : ∀ f, result = .error f → ∀ stage ∈ Stage.setups, f.kind.stage? = some stage → stage ∉ taken

theorem keeps_tellsReused :
    (run (.asked environment packages) plan (.ofPlan plan)).Keeps (resumedMoves found plan.checkout) (fun _ => True)
      (fun out _ => TellsReused (reused plan found) out.1 out.2) true := by
  have hquiet := quiet_resumedMoves found plan.checkout
  have htold : Told (reused plan found) (.ofPlan plan) := told_of_nil rfl
  have hcloned : Told (reused plan found) ((Report.ofPlan plan).record .cloned .skipped (some "existing checkout")) :=
    htold.record fun hsetup => absurd hsetup (by decide)
  have hbegin := keeps_begin_resumed environment packages (fun _ => htold.admits rfl) fun _ =>
    (foretold_takesUp hcloned true).mono fun _ h => h.completed (by decide)
  have hstages := holds_stages hquiet hbegin (fun _ _ _ h => h.pin hquiet) (fun _ _ _ h => h.sync hquiet)
    (fun _ _ _ _ h => h.provision hquiet (by decide) asks_setupEnvironment fun _ => rfl)
    (fun _ _ _ _ h => h.provision hquiet (by decide) asks_setupPackages fun _ => rfl)
    (fun _ _ _ h => h.configure hquiet)
  refine keeps_run (Keeps.mono hstages fun out s hout => ?_)
  obtain ⟨result, r⟩ := out
  cases result with
  | error f =>
    refine ⟨hout.told, ?_⟩
    rintro _ ⟨⟩
    exact hout.failed
  | ok u =>
    have hdone : ∀ head, Told (reused plan found) ({ r with head }.record .done .ran none) := fun head =>
      Told.record hout fun hsetup => absurd hsetup (by decide)
    exact keeps_anyway fun head _ => keeps_anyway fun _ _ => ⟨hdone head, nofun⟩

end

/-! ## What is skipped -/

section

variable {plan : Plan} {taken : List Stage} {result : Except Failure Unit} {report : Report} {stage : Stage} {n : Nat}

theorem ReachesInOrder.getElem? {es : List Exchange} (horder : ReachesInOrder plan result report es)
    (hn : n < report.stages.length) :
    (report.stages.map StageRecord.stage)[n]? = (Stage.sequence ++ [.done])[n]? := by
  obtain ⟨later, hlater⟩ := horder.stages
  rw [← hlater, List.getElem?_append_left (by rwa [List.length_map])]

/-- A setup step is skipped exactly if the run has taken it over and gets to it. -/
theorem TellsReused.skips_iff (htells : TellsReused taken result report) {es : List Exchange}
    (horder : ReachesInOrder plan result report es) (hn : Stage.sequence[n]? = some stage)
    (hsetup : stage ∈ Stage.setups) :
    (∃ note, ⟨stage, .skipped, note⟩ ∈ report.stages) ↔ stage ∈ taken ∧ GetsPast n result report := by
  have hlt : n < Stage.sequence.length := (List.getElem?_eq_some_iff.mp hn).1
  have hplace : (Stage.sequence ++ [.done])[n]? = some stage := by rw [List.getElem?_append_left hlt, hn]
  constructor
  · rintro ⟨note, hmem⟩
    obtain ⟨k, hk⟩ := List.mem_iff_getElem?.mp hmem
    have hlong : k < report.stages.length := (List.getElem?_eq_some_iff.mp hk).1
    have hsame : (Stage.sequence ++ [.done])[n]? = (Stage.sequence ++ [.done])[k]? := by
      rw [hplace, ← horder.getElem? hlong, List.getElem?_map, hk]
      rfl
    have hbound : n < (Stage.sequence ++ [Stage.done]).length := (List.getElem?_eq_some_iff.mp hplace).1
    obtain rfl : n = k := (List.getElem?_inj hbound (by decide)).mp hsame
    exact ⟨(htells.told _ hmem hsetup).mp rfl, hlong.le, fun heq => absurd heq hlong.ne'⟩
  · rintro ⟨htaken, hpast⟩
    rcases hpast.1.lt_or_eq with hlonger | heq
    · -- The step is recorded, since the stages are recorded in order.
      have hget := (horder.getElem? hlonger).trans hplace
      rw [List.getElem?_map, Option.map_eq_some_iff] at hget
      obtain ⟨⟨_, outcome, note⟩, hrecord, rfl⟩ := hget
      have hmem := List.mem_of_getElem? hrecord
      obtain rfl : outcome = .skipped := (htells.told _ hmem hsetup).mpr htaken
      exact ⟨note, hmem⟩
    · -- The run ended at the step, so it had not taken it over.
      exfalso
      cases result with
      | ok u =>
        have hlength := congrArg List.length (horder.ok_iff.mp rfl).1
        rw [List.length_map, List.length_append, List.length_singleton] at hlength
        omega
      | error f =>
        have hreached := (horder.kind f rfl).2 (hpast.2 heq.symm f rfl)
        have hstage : f.kind.stage? = some stage := by rw [FailureKind.stage?, hreached, ← heq, Option.bind_some, hn]
        exact htells.failed f rfl stage hsetup hstage htaken

end

section

variable {h h₁ : Host} {plan : Plan}

/-- The collaborators on a discreet host are surroundings of a resumed run. -/
theorem resumed_answer (hdiscreet : h.Discreet) (hpresent : h.files.present h.cwd plan.checkout = true) (quiet : Bool)
    (q : Question) (v : Host) (s : Bool) (hv : s = true → h.SameFiles v) :
    ∃ s', resumedMoves (h.record plan.checkout) plan.checkout s
        ⟨q, some (((Collaborators.ofPlan plan quiet).answer q).run v).1⟩ s' ∧
      (s' = true → h.SameFiles (((Collaborators.ofPlan plan quiet).answer q).run v).2) := by
  have hstay : ∀ {α : Type} {x : HostM α}, HostM.Discreetly x → s = true → h.SameFiles (x.run v).2 := fun hx hs =>
    (hv hs).trans (hx v (hdiscreet.sameFiles (hv hs)))
  cases q with
  | present path =>
    refine ⟨s, ⟨rfl, fun hs hpath => ?_⟩, hv⟩
    change v.files.present v.cwd path = true
    rw [(hv hs).1, (hv hs).2, hpath, hpresent]
  | load path =>
    have hanswer : (Collaborators.ofPlan plan quiet).answer (.load path) = Progress.load path := by
      simp only [Collaborators.answer, Collaborators.ofPlan, Workspace.onHost]
    rw [hanswer]
    cases hload : (Progress.load path).run v with
    | mk loaded v' =>
      obtain ⟨hloaded, hfiles⟩ := Progress.load_eq hload
      refine ⟨s, ⟨rfl, fun hs hpath => ?_⟩, fun hs => (hv hs).trans hfiles⟩
      rw [hloaded, hpath, Progress.record_of_sameFiles (hv hs)]
  | ensureAvailable =>
    have hversion := HostM.closed_discreetly.isAvailable (HostM.discreetly_execute "git" none rfl)
    exact ⟨s, rfl, hstay (HostM.closed_discreetly.ensureAvailable hversion)⟩
  | isWorkTree repo => exact ⟨s, rfl, hstay (HostM.closed_discreetly.isWorkTree (HostM.discreetly_execute _ _ rfl))⟩
  | now => exact ⟨s, rfl, hv⟩
  | log level message => exact ⟨s, rfl, hstay (HostM.closed_discreetly.log _ _ _)⟩
  | banner message => exact ⟨s, rfl, hstay (HostM.closed_discreetly.banner quiet message)⟩
  | _ => exact ⟨false, trivial, nofun⟩

theorem carryOut_tellsReused (hdiscreet : h.Discreet) (hpresent : h.files.present h.cwd plan.checkout = true)
    (hfiles : h.SameFiles h₁) (quiet : Bool) :
    ∃ result report h₂ es, (plan.carryOut quiet).run h₁ = ((result, report), h₂) ∧
      ReachesInOrder plan result report es ∧ TellsReused (reused plan (h.record plan.checkout)) result report := by
  obtain ⟨result, report, es, h₂, hrun, _, horder⟩ :=
    run_reaches_stages_in_order (Collaborators.ofPlan plan quiet) plan h₁
  have hkeeps : (run (questions (.ofPlan plan quiet)) plan (.ofPlan plan)).Keeps
      (resumedMoves (h.record plan.checkout) plan.checkout) (fun _ => True)
      (fun out _ => TellsReused (reused plan (h.record plan.checkout)) out.1 out.2) true := keeps_tellsReused
  obtain ⟨_, htells, _⟩ := hkeeps.hold (R := fun v s => s = true → h.SameFiles v)
    (resumed_answer hdiscreet hpresent quiet) (fun _ => hfiles)
  rw [hold_run, hrun] at htells
  exact ⟨result, report, h₂, es, hrun, horder, htells⟩

end

/-! ## What the status lists -/

namespace Status

theorem ofSettings_pending (source : SourceControl HostM) (settings : Settings) (workdir : Path) (h : Host) :
    ((ofSettings source settings workdir).run h).1.pending = Stage.sequence.filter fun stage =>
      !((ofSettings source settings workdir).run h).1.completed.contains stage := by
  simp only [ofSettings, HostM.run_bind, StateT.run_pure]
  simp only [pure]

/-- The status lists what the record of the checkout holds. -/
theorem ofSettings_completed {h : Host} (hdiscreet : h.Discreet) (settings : Settings) (workdir : Path) :
    ((ofSettings (Git.sourceControl "git") settings workdir).run h).1.completed =
      ((h.record (workdir.child settings.source.checkoutDir)).map Progress.completed).getD [] := by
  generalize hcheckout : workdir.child settings.source.checkoutDir = checkout
  let surveyed := (survey (Git.sourceControl "git") checkout : HostM (Bool × Bool × Option String)).run h
  let compared := (pinMatchesHead (Git.sourceControl "git") checkout settings.source.syncPolicy surveyed.1.2.2
    settings.source.revision).run surveyed.2
  have hask : ∀ more, HostM.Discreetly (HostM.execute "git" ("rev-parse" :: more) (some checkout)) := fun _ =>
    HostM.discreetly_execute _ _ rfl
  have hsurveyed : h.SameFiles surveyed.2 := HostM.closed_discreetly.survey hask h hdiscreet
  have hcompared : h.SameFiles compared.2 :=
    hsurveyed.trans (HostM.closed_discreetly.pinMatchesHead hask _ _ _ _ (hdiscreet.sameFiles hsurveyed))
  have hloaded : ((Progress.load checkout).run compared.2).1 = h.record checkout := by
    rw [Progress.load_fst, Progress.record_of_sameFiles hcompared]
  rw [← hloaded]
  simp only [ofSettings, HostM.run_bind, hcheckout]
  rfl

theorem mem_pending {completed : List Stage} {stage : Stage} (hstage : stage ∈ Stage.sequence) :
    stage ∈ (Stage.sequence.filter fun stage => !completed.contains stage) ↔ stage ∉ completed := by
  rw [List.mem_filter, and_iff_right hstage, Bool.not_eq_true', ← Bool.not_eq_true, List.contains_iff_mem]

end Status

/-- The same options, but an existing checkout is taken over. -/
def Options.resumed (o : Options) : Options := { o with resume := true }

theorem Options.settings_resumed {o : Options} {h h₁ : Host} {workdir : Path} {settings : Settings}
    (hsettings : (o.resumed.settings workdir).run h = (.ok settings, h₁)) :
    ∃ settings', (o.settings workdir).run h = (.ok settings', h₁) ∧
      settings'.source.checkoutDir = settings.source.checkoutDir := by
  have hconfig : o.resumed.config = o.config := rfl
  rw [Options.settings, HostM.run_bind, hconfig] at hsettings
  rw [Options.settings, HostM.run_bind]
  cases hload : (Settings.load o.config workdir).run h with
  | mk result h' =>
    rw [hload] at hsettings
    cases result with
    | error e => cases hsettings
    | ok loaded =>
      cases hsettings
      exact ⟨_, rfl, rfl⟩

/-- The status lists the stages in the record of the checkout, and all others as pending. -/
theorem Options.status_of_settings {o : Options} {h h₁ : Host} {workdir : Path} {settings : Settings}
    (hdiscreet : h.Discreet) (hworkdir : o.workdirOn.run h = (.ok workdir, h))
    (hsettings : (o.settings workdir).run h = (.ok settings, h₁)) :
    ∃ status h', (o.status (Git.sourceControl "git")).run h = (.ok status, h') ∧
      status.checkout = workdir.child settings.source.checkoutDir ∧
      status.completed = ((h.record status.checkout).map Progress.completed).getD [] ∧
      ∀ stage ∈ Stage.sequence, stage ∈ status.pending ↔ stage ∉ status.completed := by
  have hfiles : h.SameFiles h₁ := by
    have hkept := o.discreetly_settings workdir h hdiscreet
    rwa [hsettings] at hkept
  have hstatus : (o.status (Git.sourceControl "git")).run h = _ := Options.withSettings_run hworkdir hsettings
  have hplace := (Status.ofSettings_fields (Git.sourceControl "git") settings workdir h₁).1
  have hcompleted := Status.ofSettings_completed (hdiscreet.sameFiles hfiles) settings workdir
  have hpending := Status.ofSettings_pending (Git.sourceControl "git") settings workdir h₁
  rw [← hplace, Progress.record_of_sameFiles hfiles] at hcompleted
  refine ⟨_, _, hstatus, hplace, hcompleted, fun stage hstage => ?_⟩
  rw [hpending, Status.mem_pending hstage]

/-- The status and a resumed run go by the same record of a checkout that is there, provided that the programs only
tell something when they are asked. A setup step is skipped exactly if the status lists it, the record was made for the
target of the run, and the run gets to the step. So the two agree on a step that the run gets to exactly if the record
has that target, or does not hold the step. -/
theorem status_agrees_on_same_target (o : Options) (h : Host) {plan : Plan} {h₁ : Host}
    (hplan : o.resumed.plan.run h = (.ok plan, h₁)) (hdiscreet : h.Discreet)
    (hpresent : h.files.present h.cwd plan.checkout = true) :
    ∃ status h' result report h₂, (o.status (Git.sourceControl "git")).run h = (.ok status, h') ∧
      (plan.carryOut o.quiet).run h₁ = ((result, report), h₂) ∧ status.checkout = plan.checkout ∧
      (∀ stage ∈ Stage.sequence, stage ∈ status.pending ↔ stage ∉ status.completed) ∧
      ∀ stage n, (stage, n) ∈ [(Stage.envReady, 3), (.pkgsReady, 4)] →
        ((∃ note, ⟨stage, .skipped, note⟩ ∈ report.stages) ↔ stage ∈ status.completed ∧
          (h.record plan.checkout).map Progress.target = some plan.targetLabel ∧ GetsPast n result report) ∧
        (GetsPast n result report →
          (((∃ note, ⟨stage, .skipped, note⟩ ∈ report.stages) ↔ stage ∈ status.completed) ↔
            (stage ∈ status.completed → (h.record plan.checkout).map Progress.target = some plan.targetLabel))) := by
  obtain ⟨workdir, resumed, detected, _, hworkdir, hresumed, hsource, hmade⟩ :=
    Options.plan_ok (congrArg Prod.fst hplan)
  have hsame : o.resumed.workdirOn = o.workdirOn := rfl
  rw [hsame] at hworkdir
  obtain ⟨settings, hsettings, hdir⟩ := Options.settings_resumed hresumed
  obtain ⟨status, h', hstatus, hplace, hcompleted, hpending⟩ := Options.status_of_settings hdiscreet hworkdir hsettings
  have hfiles : h.SameFiles h₁ := by
    have hkept := o.resumed.discreetly_plan h hdiscreet
    rwa [hplan] at hkept
  have hcheckout : status.checkout = plan.checkout := by
    rw [hplace, (Plan.ofSettings_ok hmade).2.2.2, hsource, hdir]
  rw [hcheckout] at hcompleted
  obtain ⟨result, report, h₂, es, hrun, horder, htells⟩ := carryOut_tellsReused hdiscreet hpresent hfiles o.quiet
  refine ⟨status, h', result, report, h₂, hstatus, hrun, hcheckout, hpending, ?_⟩
  intro stage n hstage
  obtain ⟨hn, hsetup⟩ : Stage.sequence[n]? = some stage ∧ stage ∈ Stage.setups := by
    simp only [List.mem_cons, Prod.mk.injEq, List.not_mem_nil, or_false] at hstage
    rcases hstage with ⟨rfl, rfl⟩ | ⟨rfl, rfl⟩
    · decide
    · decide
  have hskips : (∃ note, ⟨stage, .skipped, note⟩ ∈ report.stages) ↔ stage ∈ status.completed ∧
      (h.record plan.checkout).map Progress.target = some plan.targetLabel ∧ GetsPast n result report := by
    rw [htells.skips_iff horder hn hsetup, mem_reused, and_assoc, hcompleted]
  refine ⟨hskips, fun hpast => ?_⟩
  rw [hskips, and_iff_left hpast]
  exact and_iff_left_iff_imp

/-- A host with a checkout in which both setup steps were completed for the revision `v1`. -/
def recordedHost : Host where
  files := ⟨[(["fiber"], .directory), (["fiber", ".git"], .directory),
    (["fiber", ".git", "fiber-bootstrap.json"],
      .file (Text.Utf8.encode ("\x7b\"target\":\"v1\",\"completed\":[\"env_ready\",\"pkgs_ready\"]," ++
        "\"updated_at\":\"2024-01-01T00:00:00Z\"\x7d"))),
    (["fiber", "setup_angr_env.sh"], .file []), (["fiber", "install_pkgs.sh"], .file []), (["bin"], .directory),
    (["bin", "git"], .program [
      { args := some [some "rev-parse", some "--is-inside-work-tree"], stdout := Text.Utf8.encode "true\n" }] true),
    (["bin", "bash"], .program [] true)]⟩

/-- Options with a revision, for a run that is not heard. -/
def quietOptions (revision : String) : Options where
  revision := some revision
  quiet := true

theorem discreet_recordedHost : recordedHost.Discreet := by
  refine Host.discreet_of_entries ?_
  simp only [recordedHost, List.forall_mem_cons]
  refine ⟨trivial, trivial, trivial, trivial, trivial, trivial, ?_, ?_, List.forall_mem_nil _⟩
  · exact Node.discreet_of_rules true (by decide)
  · exact Node.discreet_of_rules true (by decide)

theorem status_agrees_on_recordedHost :
    ∃ plan h₁, (quietOptions "v1").resumed.plan.run recordedHost = (.ok plan, h₁) ∧ recordedHost.Discreet ∧
      recordedHost.files.present recordedHost.cwd plan.checkout = true ∧
      ∃ status h' result report h₂,
        ((quietOptions "v1").status (Git.sourceControl "git")).run recordedHost = (.ok status, h') ∧
        (plan.carryOut true).run h₁ = ((result, report), h₂) ∧ GetsPast 4 result report ∧
        .pkgsReady ∈ status.completed ∧ ∃ note, ⟨.pkgsReady, .skipped, note⟩ ∈ report.stages := by
  have hfacts : (((quietOptions "v1").resumed.plan.run recordedHost).1.toOption.any fun plan => decide
      (recordedHost.files.present recordedHost.cwd plan.checkout = true ∧
        (recordedHost.record plan.checkout).map Progress.target = some plan.targetLabel ∧
        ((plan.carryOut true).run ((quietOptions "v1").resumed.plan.run recordedHost).2).1.2.stages.length = 7)) =
      true := by decide +kernel
  have hlisted : (((quietOptions "v1").status (Git.sourceControl "git")).run recordedHost).1.toOption.any
      (fun status => status.completed.contains .pkgsReady) = true := by decide +kernel
  cases hplan : (quietOptions "v1").resumed.plan.run recordedHost with
  | mk planned h₁ =>
    rw [hplan] at hfacts
    cases planned with
    | error e => cases hfacts
    | ok plan =>
      obtain ⟨hpresent, htarget, hlength⟩ := of_decide_eq_true hfacts
      obtain ⟨status, h', result, report, h₂, hstatus, hrun, _, _, hagree⟩ :=
        status_agrees_on_same_target (quietOptions "v1") recordedHost hplan discreet_recordedHost hpresent
      have hrun : (plan.carryOut true).run h₁ = ((result, report), h₂) := hrun
      rw [hrun] at hlength
      rw [hstatus] at hlisted
      have hlength : report.stages.length = 7 := hlength
      have hcompleted : .pkgsReady ∈ status.completed := List.contains_iff_mem.mp hlisted
      have hpast : GetsPast 4 result report := ⟨by omega, by omega⟩
      exact ⟨plan, h₁, rfl, discreet_recordedHost, hpresent, status, h', result, report, h₂, hstatus, hrun, hpast,
        hcompleted, (hagree .pkgsReady 4 (by decide)).1.mpr ⟨hcompleted, htarget, hpast⟩⟩

/-- The status lists stages that were completed for another revision, and a resumed run carries them out again. -/
theorem status_lists_stages_of_other_target :
    ∃ plan h₁ status h' report h₂, (quietOptions "v2").resumed.plan.run recordedHost = (.ok plan, h₁) ∧
      ((quietOptions "v2").status (Git.sourceControl "git")).run recordedHost = (.ok status, h') ∧
      (plan.carryOut true).run h₁ = ((.ok (), report), h₂) ∧
      status.workTree = true ∧ status.completed = [.envReady, .pkgsReady] ∧
      ⟨.envReady, .ran, none⟩ ∈ report.stages ∧ ⟨.pkgsReady, .ran, none⟩ ∈ report.stages ∧
      ∀ record ∈ report.stages, record.stage ∈ status.completed → record.outcome ≠ .skipped := by
  have hstatus : (((quietOptions "v2").status (Git.sourceControl "git")).run recordedHost).1.toOption.any
      (fun status => decide (status.workTree = true ∧ status.completed = [.envReady, .pkgsReady])) = true := by
    decide +kernel
  have hrun : ((((quietOptions "v2").resumed.plan.run recordedHost).1.toOption.map fun plan =>
      ((plan.carryOut true).run ((quietOptions "v2").resumed.plan.run recordedHost).2).1).any fun out =>
      decide (out.1.isOk = true ∧ ⟨.envReady, .ran, none⟩ ∈ out.2.stages ∧ ⟨.pkgsReady, .ran, none⟩ ∈ out.2.stages ∧
        ∀ record ∈ out.2.stages, record.stage ∈ Stage.setups → record.outcome ≠ .skipped)) = true := by
    decide +kernel
  generalize (quietOptions "v2").resumed.plan.run recordedHost = planned at hrun
  generalize ((quietOptions "v2").status (Git.sourceControl "git")).run recordedHost = found at hstatus
  obtain ⟨planned, h₁⟩ := planned
  obtain ⟨found, h'⟩ := found
  cases planned with
  | error e => cases hrun
  | ok plan =>
    cases found with
    | error e => cases hstatus
    | ok status =>
      obtain ⟨htree, hlisted⟩ := of_decide_eq_true hstatus
      rw [Except.toOption, Option.map_some, Option.any_some] at hrun
      generalize hout : (plan.carryOut true).run h₁ = out at hrun
      obtain ⟨⟨result, report⟩, h₂⟩ := out
      obtain ⟨hok, henv, hpkgs, hskipped⟩ := of_decide_eq_true hrun
      cases result with
      | error f => cases hok
      | ok u =>
        refine ⟨plan, h₁, status, h', report, h₂, rfl, rfl, hout, htree, hlisted, henv, hpkgs, ?_⟩
        rw [hlisted]
        exact hskipped

end Bringup
