import Bringup.Proofs.Alike
import Bringup.Proofs.ExitStatus

/-!
# What a run prints on the standard output

Nothing but its report. Whatever programs print for the operator, a run comes to the same.
-/

namespace Bringup

set_option autoImplicit false

open Bringup.Text (Bytes)
open HostM

/-! ## Runs on alike hosts -/

theorem Plan.steady_carryOut (plan : Plan) (quiet : Bool) : Steady (plan.carryOut quiet) := by
  refine closed_steady.carryOut fun q => ?_
  refine closed_steady.answer (steady_isAvailable _) ?_ (fun _ _ _ _ => steady_stream _ _ _) plan quiet q ?_
  · exact fun _ _ hargs => steady_execute _ _ hargs
  · exact fun _ _ _ => steady_writeText _ _

theorem Command.steady_runMain (o : Options) : Steady (Command.runMain o) :=
  closed_steady.runMain steady_print (closed_steady.plan ToolSearch.steady_findDisassembler o)
    fun plan => plan.steady_carryOut o.quiet

section

variable {o : Options} {env : Environment} {args : List String}

theorem Program.steady_start (hparse : CommandLine.parse (fallbacks env) args = .ok o) (hcommand : o.command = .run) :
    Steady (Program.start env args) := by
  have hcolour : Steady (modify fun h => { h with colour := forcesColour env } : HostM PUnit) := by
    intro h h' halike
    refine ⟨rfl, halike.files, ?_, halike.clock, halike.readings, halike.calls, halike.stdout⟩
    exact congrArg (fun s : Host.Standing => { s with colour := forcesColour env }) halike.standing
  have hperform : Steady o.perform := by
    rw [Options.perform, hcommand]
    exact Command.steady_runMain o
  rw [Program.start, hparse]
  refine hcolour.bind fun _ => (closed_steady.setUpLog o env).bind fun _ => hperform.bind fun result => ?_
  cases result with
  | ok u => exact closed_steady.pure _
  | error failure => exact (closed_steady.complain failure).bind fun _ => closed_steady.pure _

end

/-! ## The bytes -/

namespace HostM

/-- Nothing is printed on the standard output. -/
def Mute {α : Type} (x : HostM α) : Prop := ∀ h, (x.run h).2.stdout = h.stdout

theorem closed_mute : Closed @Mute :=
  closed_of_relation (R := fun h h' => h'.stdout = h.stdout) (fun _ _ _ _ _ => rfl) fun _ _ _ h h' => h'.trans h

theorem mute_writeText (p : Path) (text : String) : Mute (writeText p text) := by
  intro h
  cases hwrite : h.files.write h.cwd p (Text.Utf8.encode text) with
  | ok files => rw [run_writeText_ok hwrite]
  | error e => rw [run_writeText_error hwrite]

theorem mute_execute (name : Text.Raw) (args : List String) (cwd : Option Path) : Mute (execute name args cwd) := by
  intro h
  cases hlaunch : h.launch name args cwd with
  | error e => rw [run_execute_error hlaunch]
  | ok found =>
    obtain ⟨dir, place, rules⟩ := found
    rw [run_execute_ok hlaunch rfl]

end HostM

theorem Options.mute_plan (o : Options) : Mute o.plan :=
  closed_mute.plan (closed_mute.findDisassembler fun _ _ => closed_mute.probeVersion (mute_execute _ _ _)) o

theorem Plan.mute_carryOut (plan : Plan) (quiet : Bool) : Mute (plan.carryOut quiet) := by
  refine closed_mute.carryOut fun q => ?_
  refine closed_mute.answer (closed_mute.isAvailable (mute_execute _ _ _)) (fun _ _ _ => mute_execute _ _ _) ?_ plan
    quiet q fun _ _ _ => mute_writeText _ _
  exact fun _ _ _ _ => closed_mute.stream (mute_execute _ _ _)

section

variable {o : Options} {h h₀ h₁ h₂ : Host} {plan : Plan} {result : Except Failure Unit} {report : Report}

theorem Command.stdout_carryOut (hplan : o.plan.run h₀ = (.ok plan, h₁))
    (hrun : (plan.carryOut o.quiet).run h₁ = ((result, report), h₂)) : h₂.stdout = h₀.stdout := by
  have hfirst := o.mute_plan h₀
  have hsecond := plan.mute_carryOut o.quiet h₁
  rw [hplan] at hfirst
  rw [hrun] at hsecond
  exact hsecond.trans hfirst

/-- The report is printed where it is asked for, and can be read back from what is printed. -/
theorem Command.stdout_runMain_json (hplan : o.plan.run h₀ = (.ok plan, h₁))
    (hrun : (plan.carryOut o.quiet).run h₁ = ((result, report), h₂)) (hjson : o.json = true)
    (hunicode : report.isUnicode = true) :
    ∃ value printed, report.json = .ok value ∧ printed = Text.Utf8.encode (value.pretty ++ "\n") ∧
      ((Command.runMain o).run h₀).2.stdout = h₀.stdout ++ printed ∧ Report.ofBytes? printed = some report := by
  have hvalue : report.json = .ok report.shown := by rw [report.json_eq, if_pos hunicode]
  refine ⟨report.shown, _, hvalue, rfl, ?_, Report.ofBytes?_pretty hvalue⟩
  rw [Command.run_runMain_eq hplan hrun, if_pos hjson, hvalue, ← Command.stdout_carryOut hplan hrun]
  rfl

/-- Nothing is printed where the run is quiet or fails and no JSON is asked for. -/
theorem Command.stdout_runMain_silent (hplan : o.plan.run h₀ = (.ok plan, h₁))
    (hrun : (plan.carryOut o.quiet).run h₁ = ((result, report), h₂)) (hjson : o.json = false)
    (hsilent : o.quiet = true ∨ result.isOk = false) : ((Command.runMain o).run h₀).2.stdout = h₀.stdout := by
  have hshown : ¬ (result.isOk && !o.quiet) = true := by
    rcases hsilent with hquiet | hfailed
    · simp [hquiet]
    · simp [hfailed]
  rw [Command.run_runMain_eq hplan hrun, if_neg (by simp [hjson]), if_neg hshown]
  exact Command.stdout_carryOut hplan hrun

theorem Program.stdout_start {env : Environment} {args : List String}
    (hparse : CommandLine.parse (fallbacks env) args = .ok o) (hcommand : o.command = .run)
    (hlog : (setUpLog o env).run { h with colour := forcesColour env } = ((), h₀)) :
    h₀.stdout = h.stdout ∧ ((Program.start env args).run h).2.stdout = ((Command.runMain o).run h₀).2.stdout := by
  have hcolour : (modify fun h => { h with colour := forcesColour env } : HostM PUnit).run h =
      (⟨⟩, { h with colour := forcesColour env }) := rfl
  have hperform : o.perform = Command.runMain o := by rw [Options.perform, hcommand]
  have hmute := closed_mute.setUpLog o env { h with colour := forcesColour env }
  rw [hlog] at hmute
  refine ⟨hmute, ?_⟩
  rw [Program.start, hparse]
  dsimp only
  rw [HostM.run_bind, hcolour, HostM.run_bind, hlog, HostM.run_bind, hperform]
  cases hmain : (Command.runMain o).run h₀ with
  | mk result h₁ =>
    cases result with
    | ok u => rfl
    | error failure => exact closed_mute.complain failure h₁

end

/-- A run prints nothing on the standard output but its report. What programs print for the operator makes no
difference: not to the exit status, to the programs that are started, to the files or to the standard output. Without
JSON, nothing is printed by a run that is quiet or fails. With JSON, once there is a plan, the report is printed and
nothing else, and what is printed is read back as this report; a report with a path that is not Unicode is not
printed. -/
theorem stdout_carries_only_report (env : Environment) (args : List String) {h h' : Host} {o : Options}
    (hparse : CommandLine.parse (Program.fallbacks env) args = .ok o) (hcommand : o.command = .run)
    (halike : h.Alike h') :
    ∃ code v v' h₀, (Program.start env args).run h = (code, v) ∧ (Program.start env args).run h' = (code, v') ∧
      v'.stdout = v.stdout ∧ v'.calls = v.calls ∧ v.files.Alike v'.files ∧
      (Program.setUpLog o env).run { h with colour := Program.forcesColour env } = ((), h₀) ∧
      ((∃ failure h₁, o.plan.run h₀ = (.error failure, h₁) ∧ v.stdout = h.stdout) ∨
        ∃ plan h₁ result report h₂, o.plan.run h₀ = (.ok plan, h₁) ∧
          (plan.carryOut o.quiet).run h₁ = ((result, report), h₂) ∧
          (o.json = true → report.isUnicode = true → ∃ value printed, report.json = .ok value ∧
            printed = Text.Utf8.encode (value.pretty ++ "\n") ∧ v.stdout = h.stdout ++ printed ∧
            Report.ofBytes? printed = some report) ∧
          (o.json = true → report.isUnicode = false → v.stdout = h.stdout) ∧
          (o.json = false → o.quiet = true ∨ result.isOk = false → v.stdout = h.stdout)) := by
  obtain ⟨hcode, hhosts⟩ := Program.steady_start hparse hcommand h h' halike
  obtain ⟨h₀, hlog⟩ : ∃ h₀,
      (Program.setUpLog o env).run { h with colour := Program.forcesColour env } = ((), h₀) := ⟨_, rfl⟩
  obtain ⟨hbefore, hstdout⟩ := Program.stdout_start hparse hcommand hlog
  obtain ⟨code, v, hfirst⟩ : ∃ code v, (Program.start env args).run h = (code, v) := ⟨_, _, rfl⟩
  obtain ⟨code', v', hsecond⟩ : ∃ code v, (Program.start env args).run h' = (code, v) := ⟨_, _, rfl⟩
  rw [hfirst, hsecond] at hcode hhosts
  rw [hfirst] at hstdout
  dsimp only at hcode hhosts hstdout
  subst hcode
  refine ⟨code, v, v', h₀, hfirst, hsecond, hhosts.stdout, hhosts.calls, hhosts.files, hlog, ?_⟩
  rw [hstdout, ← hbefore]
  cases hplan : o.plan.run h₀ with
  | mk planned h₁ =>
    cases planned with
    | error failure =>
      have hmute := o.mute_plan h₀
      rw [hplan] at hmute
      rw [Command.run_runMain_error hplan]
      exact .inl ⟨failure, h₁, rfl, hmute⟩
    | ok plan =>
      obtain ⟨result, report, h₂, hrun⟩ : ∃ result report h₂,
          (plan.carryOut o.quiet).run h₁ = ((result, report), h₂) := ⟨_, _, _, rfl⟩
      refine .inr ⟨plan, h₁, result, report, h₂, rfl, hrun, ?_, ?_, ?_⟩
      · exact Command.stdout_runMain_json hplan hrun
      · intro hjson hunicode
        rw [Command.run_runMain_unwritten hplan hrun hjson hunicode]
        exact Command.stdout_carryOut hplan hrun
      · exact Command.stdout_runMain_silent hplan hrun

/-! ## Hosts that say different things -/

/-- The rules differ at most in what they print for the operator. -/
structure Rule.Matches (r r' : Rule) : Prop where
  args : r'.args = r.args
  files : r'.files = r.files
  status : r'.status = r.status
  output : (∀ args, r.applies args = true → isForOperator args = true) ∨ (r'.stdout = r.stdout ∧ r'.stderr = r.stderr)

theorem Rule.alike_chosen {rules rules' : List Rule} (hrules : List.Forall₂ Rule.Matches rules rules')
    (args : List String) : Rule.Alike args (Rule.chosen rules args) (Rule.chosen rules' args) := by
  induction hrules with
  | nil => exact ⟨rfl, rfl, fun _ => ⟨rfl, rfl⟩⟩
  | @cons r r' rules rules' hr _ ih =>
    have hsame : r'.applies args = r.applies args := by rw [Rule.applies, Rule.applies, hr.args]
    rw [Rule.chosen, Rule.chosen, List.find?_cons, List.find?_cons, hsame]
    cases happlies : r.applies args with
    | false => exact ih
    | true =>
      refine ⟨hr.files, hr.status, fun hread => ?_⟩
      rcases hr.output with hprinted | hsame
      · rw [hprinted args happlies] at hread
        cases hread
      · exact hsame

theorem FileTree.alike_of_entries {t t' : FileTree}
    (h : List.Forall₂ (fun e e' => e'.1 = e.1 ∧ e.2.Alike e'.2) t.entries t'.entries) : t.Alike t' := by
  intro place
  rw [FileTree.get?, FileTree.get?]
  split
  · exact .some (.same _)
  · generalize t.entries = entries at h
    generalize t'.entries = entries' at h
    induction h with
    | nil => exact .none
    | @cons e e' entries entries' he _ ih =>
      obtain ⟨hplace, hnode⟩ := he
      rw [List.lookup_cons, List.lookup_cons, hplace]
      cases place == e.1 with
      | true => exact .some hnode
      | false => exact ih

/-- A host whose program for source control fails to clone, with these words. -/
def strandedHostSaying (words : Bytes) : Host where
  files := ⟨[(["bin"], .directory),
    (["bin", "git"], .program [{ args := some [some "clone"], stdout := words, status := .exited 128 }] true)]⟩

theorem alike_strandedHostSaying (words words' : Bytes) :
    (strandedHostSaying words).Alike (strandedHostSaying words') := by
  refine ⟨FileTree.alike_of_entries ?_, rfl, rfl, rfl, rfl, rfl⟩
  have hclone : ∀ args, Rule.applies { args := some [some "clone"] } args = true → isForOperator args = true := by
    intro args happlies
    cases args with
    | nil => cases happlies
    | cons arg args =>
      obtain rfl : "clone" = arg := by simpa [Rule.applies, Rule.starts] using happlies
      cases args with
      | nil => rfl
      | cons _ _ => rfl
  refine .cons ⟨rfl, .same _⟩ (.cons ⟨rfl, .program true (Rule.alike_chosen ?_)⟩ .nil)
  exact .cons ⟨rfl, rfl, rfl, .inl hclone⟩ .nil

/-- The command line of a run that reports in JSON. -/
def reportingRun : List String := ["run", "--json", "--revision", "v1"]

theorem stdout_of_stranded_runs :
    ∃ o, CommandLine.parse (Program.fallbacks []) reportingRun = .ok o ∧ o.command = .run ∧
      (strandedHostSaying [104, 105]).Alike (strandedHostSaying []) ∧
      ∃ v v' report, (Program.start [] reportingRun).run (strandedHostSaying [104, 105]) = (128, v) ∧
        (Program.start [] reportingRun).run (strandedHostSaying []) = (128, v') ∧
        v'.stdout = v.stdout ∧ v'.calls = v.calls ∧ Report.ofBytes? v.stdout = some report := by
  have hcode : ((Program.start [] reportingRun).run (strandedHostSaying [104, 105])).1 = 128 := by decide +kernel
  have hprinted : ((Program.start [] reportingRun).run (strandedHostSaying [104, 105])).2.stdout ≠ [] := by
    decide +kernel
  obtain ⟨o, hparse, hcommand, hjson⟩ : ∃ o,
      CommandLine.parse (Program.fallbacks []) reportingRun = .ok o ∧ o.command = .run ∧ o.json = true :=
    ⟨_, rfl, rfl, rfl⟩
  have halike := alike_strandedHostSaying [104, 105] []
  obtain ⟨code, v, v', h₀, hfirst, hsecond, hstdout, hcalls, _, _, hends⟩ :=
    stdout_carries_only_report [] reportingRun hparse hcommand halike
  rw [hfirst] at hcode hprinted
  obtain rfl : code = 128 := hcode
  rcases hends with ⟨_, _, _, hnone⟩ | ⟨_, _, _, report, _, _, _, hreport, hunwritten, _⟩
  · exact absurd hnone hprinted
  · cases hunicode : report.isUnicode with
    | false => exact absurd (hunwritten hjson hunicode) hprinted
    | true =>
      obtain ⟨value, printed, _, _, hprinted, hread⟩ := hreport hjson hunicode
      rw [← show v.stdout = printed from hprinted] at hread
      exact ⟨o, hparse, hcommand, halike, v, v', report, hfirst, hsecond, hstdout, hcalls, hread⟩

end Bringup
