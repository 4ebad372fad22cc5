import Bringup.Proofs.Calls

/-!
# Looking for a tool

* `ToolSearch.run_detectNow`: what a search finds, said without the search (`ToolSearch.finding`).
* `ToolSearch.answered_detect`: an answer is either found now or one that was kept and is still recent.
* `ToolSearch.located`: the disassembler of the host. `ToolSearch.findDisassembler_fst`: a new detector finds it.
-/

namespace Bringup

set_option autoImplicit false

/-! ## Hosts that a search cannot tell apart -/

/-- Files, and what does not change throughout a command, are the same. -/
structure Host.Like (h h' : Host) : Prop where
  files : h.SameFiles h'
  standing : h'.standing = h.standing

namespace Host

variable {h h' : Host}

theorem Like.refl (h : Host) : h.Like h := ⟨⟨rfl, rfl⟩, rfl⟩

theorem Like.trans {h'' : Host} (hfirst : h.Like h') (hsecond : h'.Like h'') : h.Like h'' :=
  ⟨hfirst.files.trans hsecond.files, hsecond.standing.trans hfirst.standing⟩

theorem Like.home (hlike : h.Like h') : h'.home = h.home := congrArg Standing.home hlike.standing

theorem Like.searchPath (hlike : h.Like h') : h'.searchPath = h.searchPath :=
  congrArg Standing.searchPath hlike.standing

theorem like_log (level : LogLevel) (target message : String) (h : Host) :
    h.Like ((HostM.log level target message).run h).2 := by
  obtain ⟨stderr, hlog⟩ := HostM.run_log level target message h
  rw [hlog]
  exact ⟨⟨rfl, rfl⟩, rfl⟩

theorem searchProgram_of_files (hfiles : h'.files = h.files) (cwd : Place) (name : Text.Raw) (dirs : List Path)
    (denied : Bool) (last : IoError) :
    h'.searchProgram cwd name dirs denied last = h.searchProgram cwd name dirs denied last := by
  induction dirs generalizing denied last with
  | nil => rfl
  | cons dir dirs ih =>
    have hprogram : h'.programAt cwd (dir.child name) = h.programAt cwd (dir.child name) := by
      rw [programAt, programAt, hfiles]
    rw [searchProgram_cons, searchProgram_cons, hprogram]
    simp only [ih]

theorem Like.launch (hlike : h.Like h') (name : Text.Raw) (args : List String) (cwd : Option Path) :
    h'.launch name args cwd = h.launch name args cwd := by
  have hdir : h'.childDirectory cwd = h.childDirectory cwd := by
    cases cwd with
    | none => exact congrArg Except.ok hlike.files.2
    | some dir => rw [childDirectory, childDirectory, hlike.files.1, hlike.files.2]
  have hprogram : ∀ dir, h'.findProgram dir name = h.findProgram dir name := by
    intro dir
    rw [findProgram, findProgram, programAt, programAt, searchProgram_of_files hlike.files.1, hlike.searchPath,
      hlike.files.1]
  rw [Host.launch, Host.launch, hdir]
  cases h.childDirectory cwd with
  | error e => rfl
  | ok dir =>
    dsimp only [bind, Except.bind]
    rw [hprogram]

end Host

namespace ToolSearch

open Bringup.Text.Utf8 (decodeLossy)

/-! ## What is found -/

/-- The first directory with a file of the tool's name. -/
def foundIn (policy : Policy) (name : String) (h : Host) : Option Path :=
  (directories policy h.searchPath h.home).find? fun dir => h.files.isFile h.cwd (dir.child name)

/-- What a tool does when it is asked for its version, if it can be asked. -/
def versionRule (tool : Path) (h : Host) : Option Rule :=
  match h.launch tool.spelling ["--version"] none with
  | .error _ => none
  | .ok (_, _, rules) => some ((rules.find? fun r => r.applies ["--version"]).getD {})

/-- The version that a tool tells. -/
def toldVersion (tool : Path) (h : Host) : Option String :=
  (versionRule tool h).bind fun rule =>
    Version.ofText? (decodeLossy (if rule.stdout.isEmpty then rule.stderr else rule.stdout))

/-- The files after a tool was asked. -/
def askedFiles (tool : Path) (h : Host) : FileTree :=
  ((versionRule tool h).map fun rule => h.files.makeAll rule.files).getD h.files

/-- What is found out about a tool at a time. -/
def finding (policy : Policy) (name : String) (h : Host) (time : Moment) : ToolStatus :=
  match foundIn policy name h with
  | some dir =>
    { available := true, path := some (dir.child name), version := toldVersion (dir.child name) h,
      source := .ofDirectory dir, lastChecked := time }
  | none =>
    { available := false, path := none, version := none, source := .notFound, lastChecked := time }

/-- The files after a tool was looked for. -/
def searchedFiles (policy : Policy) (name : String) (h : Host) : FileTree :=
  match foundIn policy name h with
  | some dir => askedFiles (dir.child name) h
  | none => h.files

section

variable {h h' : Host}

theorem foundIn_of_like (hlike : h.Like h') (policy : Policy) (name : String) :
    foundIn policy name h' = foundIn policy name h := by
  rw [foundIn, foundIn, hlike.home, hlike.searchPath, hlike.files.1, hlike.files.2]

theorem versionRule_of_like (hlike : h.Like h') (tool : Path) : versionRule tool h' = versionRule tool h := by
  rw [versionRule, versionRule, hlike.launch]

theorem finding_of_like (hlike : h.Like h') (policy : Policy) (name : String) (time : Moment) :
    finding policy name h' time = finding policy name h time := by
  simp only [finding, foundIn_of_like hlike, toldVersion, versionRule_of_like hlike]

theorem searchedFiles_of_like (hlike : h.Like h') (policy : Policy) (name : String) :
    searchedFiles policy name h' = searchedFiles policy name h := by
  simp only [searchedFiles, foundIn_of_like hlike, askedFiles, versionRule_of_like hlike, hlike.files.1]

theorem run_firstWith (name : String) (dirs : List Path) (h : Host) :
    (firstWith name dirs).run h =
      ((dirs.find? fun dir => h.files.isFile h.cwd (dir.child name)).map fun dir => (dir, dir.child name), h) := by
  induction dirs with
  | nil => rfl
  | cons dir dirs ih =>
    have hrun : (HostM.isFile (dir.child name)).run h = (h.files.isFile h.cwd (dir.child name), h) := rfl
    rw [firstWith, HostM.run_bind, hrun, List.find?_cons]
    cases h.files.isFile h.cwd (dir.child name) with
    | true => rfl
    | false => exact ih

theorem run_probeVersion (tool : Path) (h : Host) :
    ∃ calls, (probeVersion tool).run h = (toldVersion tool h, { h with files := askedFiles tool h, calls }) := by
  rw [probeVersion, HostM.run_bind, toldVersion, askedFiles, versionRule]
  cases hlaunch : h.launch tool.spelling ["--version"] none with
  | error e =>
    rw [HostM.run_execute_error hlaunch]
    exact ⟨h.calls, rfl⟩
  | ok started =>
    obtain ⟨dir, place, rules⟩ := started
    rw [HostM.run_execute_ok hlaunch rfl]
    exact ⟨_, rfl⟩

theorem run_log_clock {α : Type} (level : LogLevel) (message : String) (k : Moment → α) (h : Host) :
    ∃ h', (do HostM.log level target message; return k (← HostM.clock) : HostM α).run h =
      (k (h.clock (h.readings + 1)), h') ∧ h.Like h' ∧ h'.readings = h.readings + 2 := by
  obtain ⟨stderr, hlog⟩ := HostM.run_log level target message h
  rw [HostM.run_bind, hlog]
  exact ⟨_, rfl, ⟨⟨rfl, rfl⟩, rfl⟩, rfl⟩

/-- A search finds what there is, at a time that the clock gives on the way. -/
theorem run_detectNow (policy : Policy) (name : String) (h : Host) :
    ∃ n h', h.readings ≤ n ∧ n < h'.readings ∧
      (detectNow policy name).run h = (finding policy name h (h.clock n), h') ∧
      h'.files = searchedFiles policy name h ∧ h'.standing = h.standing := by
  have hget : ∀ h : Host, (get : HostM Host).run h = (h, h) := fun _ => rfl
  obtain ⟨stderr, hlog⟩ := HostM.run_log .debug target s!"Starting real-time detection for {name}" h
  have hlike := Host.like_log .debug target s!"Starting real-time detection for {name}" h
  rw [detectNow, HostM.run_bind]
  rw [hlog] at hlike ⊢
  generalize hstarted : ({ h with logs := _, readings := _, stderr := _ } : Host) = h₁ at hlike ⊢
  have hclock : h₁.clock = h.clock := by rw [← hstarted]
  have hreadings : h₁.readings = h.readings + 1 := by rw [← hstarted]
  have hfirst := run_firstWith name (directories policy h₁.searchPath h₁.home) h₁
  change _ = ((foundIn policy name h₁).map _, h₁) at hfirst
  rw [HostM.run_bind, hget, HostM.run_bind, hfirst, foundIn_of_like hlike]
  cases hfound : foundIn policy name h with
  | none =>
    obtain ⟨h', hrun, hafter, hread⟩ := run_log_clock .debug s!"Tool {name} not found in any location"
      (ToolStatus.mk false none none .notFound) h₁
    refine ⟨h₁.readings + 1, h', by omega, by omega, ?_, ?_, (hlike.trans hafter).standing⟩
    · rw [finding, hfound, ← hclock]
      exact hrun
    · rw [searchedFiles, hfound]
      exact (hlike.trans hafter).files.1
  | some dir =>
    obtain ⟨calls, hprobe⟩ := run_probeVersion (dir.child name) h₁
    have htold : toldVersion (dir.child name) h₁ = toldVersion (dir.child name) h := by
      rw [toldVersion, toldVersion, versionRule_of_like hlike]
    have hasked : askedFiles (dir.child name) h₁ = askedFiles (dir.child name) h := by
      rw [askedFiles, askedFiles, versionRule_of_like hlike, hlike.files.1]
    rw [htold, hasked] at hprobe
    dsimp only [Option.map_some]
    rw [HostM.run_bind, hprobe]
    obtain ⟨h', hrun, hafter, hread⟩ := run_log_clock .info _
      (ToolStatus.mk true (some (dir.child name)) (toldVersion (dir.child name) h) (.ofDirectory dir))
      { h₁ with files := askedFiles (dir.child name) h, calls }
    refine ⟨h₁.readings + 1, h', by omega, by rw [hread]; exact Nat.lt_succ_self _, ?_, ?_,
      hafter.standing.trans hlike.standing⟩
    · rw [finding, hfound, ← hclock]
      exact hrun
    · rw [searchedFiles, hfound]
      exact hafter.files.1

end

/-! ## Answers -/

/-- The detector with one more answer. -/
def Detector.keeping (d : Detector) (name : String) (status : ToolStatus) : Detector :=
  { d with kept := (name, status) :: d.kept.filter fun k => k.1 != name }

/-- How an answer comes about: it was kept, or the tool is looked for. -/
inductive Answered (d : Detector) (name : String) (h : Host) : ToolStatus → Detector → Host → Prop
  | kept {status : ToolStatus} {h' : Host} (hkeep : d.policy.keep = true) (hkept : d.kept.lookup name = some status)
      (hrecent : isRecent d.policy status.lastChecked (h.clock h.readings) = true) (hlike : h.Like h') :
      Answered d name h status d h'
  | found {status : ToolStatus} {d' : Detector} {h' : Host} (n : Nat) (hn : h.readings ≤ n) (hlt : n < h'.readings)
      (hstatus : status = finding d.policy name h (h.clock n)) (hkept : d' = d ∨ d' = d.keeping name status)
      (hfiles : h'.files = searchedFiles d.policy name h) (hstanding : h'.standing = h.standing) :
      Answered d name h status d' h'

theorem run_recent (d : Detector) (name : String) (h : Host) :
    ∃ h', (recent? d name).run h =
        ((d.kept.lookup name).filter fun status => isRecent d.policy status.lastChecked (h.clock h.readings), h') ∧
      h.Like h' ∧ h'.clock = h.clock ∧ h.readings ≤ h'.readings := by
  rw [recent?]
  cases d.kept.lookup name with
  | none => exact ⟨h, rfl, .refl h, rfl, Nat.le_refl _⟩
  | some status =>
    refine ⟨{ h with readings := h.readings + 1 }, ?_, ⟨⟨rfl, rfl⟩, rfl⟩, rfl, Nat.le_succ _⟩
    rw [Option.filter_some]
    rfl

theorem detect_of_not_keep {d : Detector} (hkeep : d.policy.keep = false) (name : String) :
    (detect name).run d = (do return (← detectNow d.policy name, d) : HostM (ToolStatus × Detector)) := by
  rw [detect, StateT.run_bind]
  change (if (!d.policy.keep) = true then _ else _ : SearchM ToolStatus).run d = _
  rw [if_pos (by rw [hkeep]; rfl)]
  rfl

theorem detect_of_keep {d : Detector} (hkeep : d.policy.keep = true) (name : String) :
    (detect name).run d = (do
      match ← recent? d name with
      | some status =>
        HostM.log .debug target s!"Using cached status for {name}: available={status.available}"
        return (status, d)
      | none =>
        let status ← detectNow d.policy name
        let shown := describeOption (status.path.map fun p => p.spelling.quoted)
        HostM.log .debug target
          s!"Real-time detection for {name}: available={status.available}, path={shown}"
        return (status, d.keeping name status) : HostM (ToolStatus × Detector)) := by
  rw [detect, StateT.run_bind]
  change (if (!d.policy.keep) = true then _ else _ : SearchM ToolStatus).run d = _
  rw [if_neg (by rw [hkeep]; decide)]
  dsimp only
  generalize recent? d name = asked
  have hasked : ∀ k : Option ToolStatus → SearchM ToolStatus,
      (liftM asked >>= k : SearchM ToolStatus).run d = asked >>= fun found => (k found).run d := fun _ => rfl
  rw [hasked]
  refine congrArg (asked >>= ·) (funext fun found => ?_)
  cases found with
  | none => rfl
  | some status => rfl

theorem answered_detect (d : Detector) (name : String) (h : Host) :
    ∃ status d' h', ((detect name).run d).run h = ((status, d'), h') ∧ Answered d name h status d' h' := by
  by_cases hkeep : d.policy.keep = true
  · obtain ⟨h₁, hrecent, hlike, hclock, hreadings⟩ := run_recent d name h
    rw [detect_of_keep hkeep, HostM.run_bind, hrecent]
    dsimp only
    cases hfound : (d.kept.lookup name).filter fun status =>
        isRecent d.policy status.lastChecked (h.clock h.readings) with
    | some status =>
      obtain ⟨hlookup, hfresh⟩ := Option.filter_eq_some_iff.mp hfound
      refine ⟨status, d, _, rfl, .kept hkeep hlookup hfresh (hlike.trans (Host.like_log ..))⟩
    | none =>
      obtain ⟨n, h₂, hn, hlt, hrun, hfiles, hstanding⟩ := run_detectNow d.policy name h₁
      rw [finding_of_like hlike, hclock] at hrun
      rw [searchedFiles_of_like hlike] at hfiles
      dsimp only
      rw [HostM.run_bind, hrun]
      have hlog := fun message => Host.like_log .debug target message h₂
      have hread : ∀ message, n < ((HostM.log .debug target message).run h₂).2.readings := by
        intro message
        obtain ⟨stderr, hrun⟩ := HostM.run_log .debug target message h₂
        rw [hrun]
        exact Nat.lt_succ_of_lt hlt
      refine ⟨_, _, _, rfl, .found n (by omega) (hread _) rfl (.inr rfl) ((hlog _).files.1.trans hfiles) ?_⟩
      exact (hlog _).standing.trans (hstanding.trans hlike.standing)
  · obtain ⟨n, h', hn, hlt, hrun, hfiles, hstanding⟩ := run_detectNow d.policy name h
    rw [detect_of_not_keep (Bool.eq_false_iff.mpr hkeep), HostM.run_bind, hrun]
    exact ⟨_, d, h', rfl, .found n hn hlt rfl (.inl rfl) hfiles hstanding⟩

/-! ## Paths of tools -/

theorem path_finding (policy : Policy) (name : String) (h : Host) (time : Moment) :
    (finding policy name h time).path = (foundIn policy name h).map fun dir => dir.child name := by
  rw [finding]
  cases foundIn policy name h with
  | none => rfl
  | some dir => rfl

theorem available_finding (policy : Policy) (name : String) (h : Host) (time : Moment) :
    (finding policy name h time).available = (foundIn policy name h).isSome := by
  rw [finding]
  cases foundIn policy name h with
  | none => rfl
  | some dir => rfl

theorem isAbsolute_of_path_finding {policy : Policy} {name : String} {h : Host} {time : Moment} {tool : Path}
    (htool : (finding policy name h time).path = some tool) : tool.isAbsolute = true := by
  rw [path_finding] at htool
  obtain ⟨dir, hdir, rfl⟩ := Option.map_eq_some_iff.mp htool
  exact Path.isAbsolute_child (isAbsolute_of_mem_directories (List.mem_of_find?_eq_some hdir)) _

/-- The first file of a tool's name. -/
def located (name : String) (h : Host) : Option Path :=
  ((directories {} h.searchPath h.home).map fun dir => dir.child name).find? fun file => h.files.isFile h.cwd file

theorem located_of_like {h h' : Host} (hlike : h.Like h') (name : String) : located name h' = located name h := by
  rw [located, located, hlike.home, hlike.searchPath, hlike.files.1, hlike.files.2]

/-- A tool is told of by the path where it was found, whatever it says of itself. -/
theorem detectNow_path (name : String) (h : Host) : ((detectNow {} name).run h).1.path = located name h := by
  obtain ⟨n, h', -, -, hrun, -⟩ := run_detectNow {} name h
  rw [hrun, path_finding, located, List.find?_map]
  rfl

theorem isAbsolute_of_located {name : String} {h : Host} {tool : Path} (htool : located name h = some tool) :
    tool.isAbsolute = true ∧ h.files.isFile h.cwd tool = true := by
  obtain ⟨dir, hdir, rfl⟩ := List.mem_map.mp (List.mem_of_find?_eq_some htool)
  exact ⟨Path.isAbsolute_child (isAbsolute_of_mem_directories hdir) _, List.find?_some htool⟩

theorem findDisassembler_fst (h : Host) : ((findDisassembler.run' {}).run h).1 = located disassemblerTool h := by
  rw [findDisassembler_eq, HostM.run_bind]
  change ((detectNow {} disassemblerTool).run h).1.path.filter Path.isAbsolute = _
  rw [detectNow_path]
  cases htool : located disassemblerTool h with
  | none => rfl
  | some tool => rw [Option.filter_some, if_pos (isAbsolute_of_located htool).1]

end ToolSearch

end Bringup
