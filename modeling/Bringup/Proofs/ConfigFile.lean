import Mathlib.Logic.Basic
import Bringup.Command.Run
import Bringup.Proofs.History
import Bringup.Proofs.LastStage

/-!
# The file of the setting

What a run says about the file that has the path of the tool, and when a tool that was only found on the host can
make it fail. The file lies in the checkout, where it may be the record of the run or hold bytes that are no text.
-/

namespace Bringup

set_option autoImplicit false

open Bringup.Text Utf8

namespace Procedure

open Disassembler

variable {plan : Plan} {progress : Progress} {r : Report}

/-! ## What the report tells of the file -/

/-- The setting and the record of the checkout are kept in one file. -/
def SharesRecord (plan : Plan) (h : Host) : Prop :=
  h.files.resolve h.cwd plan.disassemblerConfigPath = h.files.resolve h.cwd (Progress.path plan.checkout)

/-- The report has the stage once, reached in this way. -/
def RecordsOnce (report : Report) (stage : Stage) (outcome : Outcome) : Prop :=
  ∃ note, (report.stages.filter fun record => record.stage == stage) = [⟨stage, outcome, note⟩]

/-- The report says that the path of the tool was written, and the file has it. If the record of the checkout is
in the same file, the file has the record. -/
structure Wrote (plan : Plan) (report : Report) (h₀ h₁ : Host) : Prop where
  ran : RecordsOnce report .configured .ran
  contents : ∃ tool before after, plan.disassembler = some tool ∧
    report.guidance = some ⟨plan.disassemblerConfigPath, plan.disassemblerKey, some tool, none⟩ ∧
    h₀.files.read h₀.cwd plan.disassemblerConfigPath = .ok (encode before) ∧
    Assignment.assign? before plan.disassemblerKey tool.text = some after ∧
    (¬ SharesRecord plan h₀ → h₁.files.read h₁.cwd plan.disassemblerConfigPath = .ok (encode after)) ∧
    (SharesRecord plan h₀ → ∃ p : Progress, h₁.files.read h₁.cwd plan.disassemblerConfigPath = .ok (encode p.text))

/-- The report says that nothing was written, and nothing was. A tool that the plan has is suggested. -/
structure Left (plan : Plan) (report : Report) (h₀ h₁ : Host) : Prop where
  skipped : RecordsOnce report .configured .skipped
  guidance : report.guidance = some ⟨plan.disassemblerConfigPath, plan.disassemblerKey, none, plan.disassembler⟩
  detected : plan.disassembler.isSome → plan.disassemblerDetected = true
  files : h₀.SameFiles h₁

theorem Wrote.not_left {report : Report} {h₀ h₁ : Host} (hwrote : Wrote plan report h₀ h₁) :
    ¬ Left plan report h₀ h₁ := by
  intro hleft
  obtain ⟨_, hran⟩ := hwrote.ran
  obtain ⟨_, hskipped⟩ := hleft.skipped
  cases hran.symm.trans hskipped

theorem Untouched.recordsOnce (hr : Untouched r) (outcome : Outcome) (note : Option String) (head : Option String)
    (applied suggested : Option Path) :
    RecordsOnce ({ guided plan applied suggested (r.record .configured outcome note) with head }.record .done .ran
      none) .configured outcome := by
  refine ⟨note, ?_⟩
  have hnone : (r.stages.filter fun record => record.stage == .configured) = [] := by
    rw [List.filter_eq_nil_iff]
    intro record hrecord
    simpa using hr.stages record hrecord
  change List.filter _ (r.stages ++ [(⟨.configured, outcome, note⟩ : StageRecord)] ++ [⟨.done, .ran, none⟩]) = _
  rw [List.filter_append, List.filter_append, hnone]
  rfl

theorem Configured.of_failed {f : Failure} {r₁ : Report} {h₀ h₁ : Host}
    (hstage : Configured plan progress r h₀ (.error f) r₁ h₁) (hkind : f.kind = .configure) : r₁ = r ∧ h₁ = h₀ := by
  generalize hresult : (Except.error f : Except Failure Unit) = result at hstage
  cases hstage with
  | noTool htool hfiles => cases hresult
  | unapplied htool hattempt hforgiven hdetected hfiles => cases hresult
  | refused htool hattempt hfatal => exact ⟨rfl, rfl⟩
  | @applied tool changed h₂ h₃ _ t stored htool hattempt hfiles hstore =>
    cases stored with
    | ok u => cases hresult
    | error e =>
      cases hresult
      cases hkind

/-- What the last stage leaves, once it has come to its end. -/
theorem Configured.wrote_or_left {r₁ : Report} {h₀ h₁ : Host} (hr : Untouched r)
    (hstage : Configured plan progress r h₀ (.ok ()) r₁ h₁) (head : Option String) :
    Wrote plan ({ r₁ with head }.record .done .ran none) h₀ h₁ ∨
      Left plan ({ r₁ with head }.record .done .ran none) h₀ h₁ := by
  generalize hresult : (Except.ok () : Except Failure Unit) = result at hstage
  cases hstage with
  | noTool htool hfiles =>
    refine .inr ⟨hr.recordsOnce .., ?_, ?_, hfiles⟩
    · rw [htool]
      rfl
    · rw [htool]
      nofun
  | unapplied htool hattempt hforgiven hdetected hfiles =>
    refine .inr ⟨hr.recordsOnce .., ?_, fun _ => hdetected, hfiles⟩
    rw [htool]
    rfl
  | refused htool hattempt hfatal => cases hresult
  | @applied tool changed h₂ h₃ _ t stored htool hattempt hfiles hstore =>
    cases stored with
    | error e => cases hresult
    | ok u =>
      obtain ⟨before, after, place, hbefore, hassign, hplace, hafter, hresolve⟩ := hattempt.assigned
      obtain ⟨hsame, hcwd⟩ := hfiles
      rw [← hsame, ← hcwd] at hplace hafter hresolve
      obtain ⟨hshared, hapart⟩ := Progress.read_after_save hstore hplace hafter
      have hshares : SharesRecord plan h₀ ↔ h₃.files.resolve h₃.cwd (Progress.path plan.checkout) = .ok place := by
        rw [SharesRecord, ← hresolve, ← hresolve, hplace.resolve, eq_comm]
      refine .inl ⟨hr.recordsOnce .., tool, before, after, htool, rfl, hbefore, hassign, ?_, ?_⟩
      · exact fun hne => hapart (mt hshares.mpr hne)
      · exact fun heq => ⟨_, hshared (hshares.mp heq)⟩

/-- What the report of a run says about the file of the setting is true of the last stage, up to one case: the
record of the checkout takes the place of the setting where both are kept in one file. -/
theorem report_tells_of_config_file (source : SourceControl HostM) (environment packages : Provisioner HostM)
    (quiet : Bool) (plan : Plan) (h : Host) :
    ∃ result report h',
      (run ⟨source, environment, packages, .onHost quiet⟩ plan (.ofPlan plan)).run h = ((result, report), h') ∧
      (report.stage = .done → ∃ h₀ h₁,
        configuring ⟨source, environment, packages, .onHost quiet⟩ plan h = some (h₀, h₁) ∧
        Xor (Wrote plan report h₀ h₁) (Left plan report h₀ h₁)) ∧
      (report.stage = .failed .configure → report.guidance = none ∧ ∃ h₀,
        configuring ⟨source, environment, packages, .onHost quiet⟩ plan h = some (h₀, h') ∧ h₀.SameFiles h') ∧
      (configuring ⟨source, environment, packages, .onHost quiet⟩ plan h = none → report.guidance = none) := by
  generalize hc : (⟨source, environment, packages, .onHost quiet⟩ : Collaborators HostM) = c
  have hworkspace : c.workspace = .onHost quiet := by rw [← hc]
  obtain ⟨result, report, h', hrun, hends⟩ := run_ends hworkspace plan h
  refine ⟨result, report, h', hrun, ?_⟩
  rcases hends with ⟨hnone, f, r, rfl, hkind, huntouched, rfl⟩ |
    ⟨h₀, h₁, progress, r, r₁, hsome, huntouched, hstage, hends⟩
  · refine ⟨nofun, fun hfailed => ?_, fun _ => huntouched.guidance⟩
    exact absurd (Stage.failed.inj hfailed) hkind
  · rw [hsome]
    cases result with
    | ok u =>
      obtain ⟨head, rfl⟩ := hends
      refine ⟨fun _ => ⟨h₀, h₁, rfl, ?_⟩, nofun, nofun⟩
      rcases hstage.wrote_or_left huntouched head with hwrote | hleft
      · exact .inl ⟨hwrote, hwrote.not_left⟩
      · exact .inr ⟨hleft, fun hwrote => hwrote.not_left hleft⟩
    | error f =>
      obtain ⟨rfl, rfl⟩ := hends
      refine ⟨nofun, fun hfailed => ?_, nofun⟩
      obtain ⟨rfl, rfl⟩ := hstage.of_failed (Stage.failed.inj hfailed)
      exact ⟨huntouched.guidance, _, rfl, .refl _⟩

/-- A host with a work tree, the programs that a run needs and a file for the setting. -/
def toolHost (config : Bytes) : Host where
  files := ⟨[(["angr"], .directory), (["angr", ".git"], .directory), (["angr", "env.sh"], .file []),
    (["angr", "packages.sh"], .file []), (["angr", "config.toml"], .file config), (["bin"], .directory),
    (["bin", "git"], .program [
      { args := some [some "rev-parse", some "--is-inside-work-tree"], stdout := encode "true\n" }] true),
    (["bin", "bash"], .program [] true), (["bin", "addr2line"], .program [] true)]⟩

/-- A plan that keeps the setting where the record of the checkout is. -/
def sharedPlan : Plan :=
  { pinnedPlan "a=b" with
    disassembler := some ⟨"/bin/addr2line"⟩
    disassemblerConfig := ⟨".git/fiber-bootstrap.json"⟩
    disassemblerKey := "\"target\": \"a" }

/-- The report says that the path of the tool was written, and the file does not have it. -/
theorem setting_is_lost_in_record :
    ∃ result report h' h₀ h₁ before after,
      (sharedPlan.carryOut true).run (toolHost []) = ((result, report), h') ∧ report.stage = .done ∧
      report.guidance = some
        ⟨sharedPlan.disassemblerConfigPath, sharedPlan.disassemblerKey, some ⟨"/bin/addr2line"⟩, none⟩ ∧
      configuring (.ofPlan sharedPlan true) sharedPlan (toolHost []) = some (h₀, h₁) ∧
      h₀.files.read h₀.cwd sharedPlan.disassemblerConfigPath = .ok (encode before) ∧
      Assignment.assign? before sharedPlan.disassemblerKey "/bin/addr2line" = some after ∧
      h₁.files.read h₁.cwd sharedPlan.disassemblerConfigPath ≠ .ok (encode after) := by
  obtain ⟨⟨h₀, h₁⟩, hlast, hlost⟩ : ∃ last,
      configuring (.ofPlan sharedPlan true) sharedPlan (toolHost []) = some last ∧
        ((last.1.files.readText last.1.cwd sharedPlan.disassemblerConfigPath).toOption.any fun before =>
          (Assignment.assign? before sharedPlan.disassemblerKey "/bin/addr2line").any fun after =>
            last.2.files.read last.2.cwd sharedPlan.disassemblerConfigPath ≠ .ok (encode after)) = true := by
    refine (Option.any_eq_true ..).mp ?_
    decide +kernel
  obtain ⟨before, hbefore, hlost⟩ := (Option.any_eq_true ..).mp hlost
  obtain ⟨after, hafter, hlost⟩ := (Option.any_eq_true ..).mp hlost
  have hread : h₀.files.read h₀.cwd sharedPlan.disassemblerConfigPath = .ok (encode before) := by
    refine FileTree.read_of_readText ?_
    cases htext : h₀.files.readText h₀.cwd sharedPlan.disassemblerConfigPath with
    | ok text =>
      rw [htext] at hbefore
      rw [Option.some.inj hbefore]
    | error e =>
      rw [htext] at hbefore
      cases hbefore
  have hends : decide (((sharedPlan.carryOut true).run (toolHost [])).1.2.stage = .done ∧
      ((sharedPlan.carryOut true).run (toolHost [])).1.2.guidance = some
        ⟨sharedPlan.disassemblerConfigPath, sharedPlan.disassemblerKey, some ⟨"/bin/addr2line"⟩, none⟩) = true := by
    decide +kernel
  generalize (sharedPlan.carryOut true).run (toolHost []) = out at hends
  obtain ⟨⟨result, report⟩, h'⟩ := out
  obtain ⟨hdone, hguidance⟩ := of_decide_eq_true hends
  exact ⟨result, report, h', h₀, h₁, before, after, rfl, hdone, hguidance, hlast, hread, hafter,
    of_decide_eq_true hlost⟩

/-! ## A tool that was found on the host -/

theorem Configured.of_detected {tool : Path} {result : Except Failure Unit} {r₁ : Report} {h₀ h₁ : Host}
    (hstage : Configured plan progress r h₀ result r₁ h₁) (htool : plan.disassembler = some tool)
    (hdetected : plan.disassemblerDetected = true) (husable : Usable tool h₀) :
    ((∃ failure, result = .error (.configure failure)) ↔ Undecodable plan.disassemblerConfigPath h₀) ∧
      (¬ Undecodable plan.disassemblerConfigPath h₀ →
        r₁ = guided plan (some tool) none (r.record .configured .ran none) ∨
        ∃ note, r₁ = guided plan none (some tool) (r.record .configured .skipped note)) := by
  cases hstage with
  | noTool hnone hfiles =>
    rw [htool] at hnone
    cases hnone
  | @unapplied other failure note _ hother hattempt hforgiven _ hfiles =>
    obtain rfl : tool = other := Option.some.inj (htool.symm.trans hother)
    have htext := (hattempt.isForgiven_iff husable).mp hforgiven
    exact ⟨⟨nofun, fun hbytes => absurd hbytes htext⟩, fun _ => .inr ⟨note, rfl⟩⟩
  | @refused other failure hother hattempt hfatal =>
    obtain rfl : tool = other := Option.some.inj (htool.symm.trans hother)
    have hbytes : Undecodable plan.disassemblerConfigPath h₀ := by
      by_contra htext
      exact hfatal ⟨(hattempt.isForgiven_iff husable).mpr htext, hdetected⟩
    exact ⟨⟨fun _ => hbytes, fun _ => ⟨failure, rfl⟩⟩, fun htext => absurd hbytes htext⟩
  | @applied other changed _ _ _ t stored hother hattempt hfiles hstore =>
    obtain rfl : tool = other := Option.some.inj (htool.symm.trans hother)
    obtain ⟨before, _, _, hbefore, _⟩ := hattempt.assigned
    have htext := not_undecodable_of_read hbefore
    refine ⟨⟨fun hfailed => ?_, fun hbytes => absurd hbytes htext⟩, fun _ => .inl rfl⟩
    obtain ⟨failure, hfailed⟩ := hfailed
    cases stored with
    | ok u => cases hfailed
    | error e => cases hfailed

/-- A run with a tool that was found on the host fails in its last stage exactly if the file of the setting has
bytes that are no text. Otherwise the path of the tool is written, or left as a suggestion. -/
theorem detected_tool_fails_only_on_bytes (source : SourceControl HostM) (environment packages : Provisioner HostM)
    (quiet : Bool) (plan : Plan) (h : Host) {h₀ h₁ : Host} {tool : Path}
    (hlast : configuring ⟨source, environment, packages, .onHost quiet⟩ plan h = some (h₀, h₁))
    (htool : plan.disassembler = some tool) (hdetected : plan.disassemblerDetected = true)
    (husable : Usable tool h₀) :
    ∃ result report h',
      (run ⟨source, environment, packages, .onHost quiet⟩ plan (.ofPlan plan)).run h = ((result, report), h') ∧
      ((∃ failure, result = .error (.configure failure)) ↔ Undecodable plan.disassemblerConfigPath h₀) ∧
      (¬ Undecodable plan.disassemblerConfigPath h₀ →
        (⟨.configured, .ran, none⟩ ∈ report.stages ∧ report.guidance =
          some ⟨plan.disassemblerConfigPath, plan.disassemblerKey, some tool, none⟩) ∨
        ((∃ note, ⟨.configured, .skipped, note⟩ ∈ report.stages) ∧ report.guidance =
          some ⟨plan.disassemblerConfigPath, plan.disassemblerKey, none, some tool⟩)) := by
  generalize hc : (⟨source, environment, packages, .onHost quiet⟩ : Collaborators HostM) = c at hlast
  have hworkspace : c.workspace = .onHost quiet := by rw [← hc]
  obtain ⟨result, report, h', hrun, hends⟩ := run_ends hworkspace plan h
  refine ⟨result, report, h', hrun, ?_⟩
  rcases hends with ⟨hnone, _⟩ | ⟨_, _, progress, r, r₁, hsome, huntouched, hstage, hends⟩
  · rw [hnone] at hlast
    cases hlast
  · obtain ⟨rfl, rfl⟩ : h₀ = _ ∧ h₁ = _ := Prod.mk.inj (Option.some.inj (hlast.symm.trans hsome))
    obtain ⟨hfails, hleaves⟩ := hstage.of_detected htool hdetected husable
    refine ⟨hfails, fun htext => ?_⟩
    rw [hends.guidance]
    rcases hleaves htext with rfl | ⟨note, rfl⟩
    · exact .inl ⟨hends.stages _ (List.mem_append_right _ (List.mem_singleton_self _)), rfl⟩
    · exact .inr ⟨⟨note, hends.stages _ (List.mem_append_right _ (List.mem_singleton_self _))⟩, rfl⟩

/-- A plan with a tool that was found on the host. -/
def detectedPlan : Plan :=
  { pinnedPlan "v1" with
    disassembler := some ⟨"/bin/addr2line"⟩
    disassemblerDetected := true
    disassemblerKey := "ADDR2LINE" }

theorem detected_tool_is_applied_on_toolHost :
    ∃ h₀ h₁, configuring (.ofPlan detectedPlan true) detectedPlan (toolHost (encode "ADDR2LINE = ''\n")) =
        some (h₀, h₁) ∧
      detectedPlan.disassembler = some ⟨"/bin/addr2line"⟩ ∧ detectedPlan.disassemblerDetected = true ∧
      Usable ⟨"/bin/addr2line"⟩ h₀ ∧ ∃ result report h',
        (detectedPlan.carryOut true).run (toolHost (encode "ADDR2LINE = ''\n")) = ((result, report), h') ∧
        (¬ ∃ failure, result = .error (.configure failure)) ∧
        ((⟨.configured, .ran, none⟩ ∈ report.stages ∧ report.guidance = some
            ⟨detectedPlan.disassemblerConfigPath, "ADDR2LINE", some ⟨"/bin/addr2line"⟩, none⟩) ∨
          ((∃ note, ⟨.configured, .skipped, note⟩ ∈ report.stages) ∧ report.guidance = some
            ⟨detectedPlan.disassemblerConfigPath, "ADDR2LINE", none, some ⟨"/bin/addr2line"⟩⟩)) := by
  obtain ⟨⟨h₀, h₁⟩, hlast, hfacts⟩ : ∃ last,
      configuring (.ofPlan detectedPlan true) detectedPlan (toolHost (encode "ADDR2LINE = ''\n")) = some last ∧
        decide (Usable ⟨"/bin/addr2line"⟩ last.1 ∧
          last.1.files.read last.1.cwd detectedPlan.disassemblerConfigPath =
            .ok (encode "ADDR2LINE = ''\n")) = true := by
    refine (Option.any_eq_true ..).mp ?_
    decide +kernel
  obtain ⟨husable, hread⟩ := of_decide_eq_true hfacts
  have htext := not_undecodable_of_read hread
  obtain ⟨result, report, h', hrun, hfails, hleaves⟩ :=
    detected_tool_fails_only_on_bytes _ _ _ true detectedPlan _ hlast rfl rfl husable
  exact ⟨h₀, h₁, hlast, rfl, rfl, husable, result, report, h', hrun, mt hfails.mp htext, hleaves htext⟩

/-- A tool that was found on the host makes a run fail: the file of the setting has a byte that is no text. -/
theorem detected_tool_fails_on_stray_byte :
    ∃ h₀ h₁, configuring (.ofPlan detectedPlan true) detectedPlan (toolHost [0xFF]) = some (h₀, h₁) ∧
      detectedPlan.disassemblerDetected = true ∧ Usable ⟨"/bin/addr2line"⟩ h₀ ∧
      ∃ report h', (detectedPlan.carryOut true).run (toolHost [0xFF]) =
        ((.error (.configure (.io .notUtf8)), report), h') := by
  obtain ⟨⟨h₀, h₁⟩, hlast, husable⟩ : ∃ last, configuring (.ofPlan detectedPlan true) detectedPlan
      (toolHost [0xFF]) = some last ∧ decide (Usable ⟨"/bin/addr2line"⟩ last.1) = true := by
    refine (Option.any_eq_true ..).mp ?_
    decide +kernel
  have hfailed : ((detectedPlan.carryOut true).run (toolHost [0xFF])).1.1 = .error (.configure (.io .notUtf8)) := by
    decide +kernel
  exact ⟨h₀, h₁, hlast, rfl, of_decide_eq_true husable, _, _, Prod.ext (Prod.ext hfailed rfl) rfl⟩

end Procedure

end Bringup
