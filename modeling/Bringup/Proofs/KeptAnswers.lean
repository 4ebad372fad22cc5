import Bringup.Proofs.Detection

/-!
# Answers that are kept

A detector is asked time and again, and the host may be another each time.

* `ToolSearch.Recorded`: every answer that is kept was found by an earlier lookup. `ToolSearch.recorded_detect` for one
  lookup, `ToolSearch.recorded_detectAll` for a list of them and `ToolSearch.recorded_session` for a whole session.
* `ToolSearch.untimed_reply`: as long as nothing changes, the reply is what a look at the host gives.
* `ToolSearch.keeping_answers_is_transparent`: keeping answers does not show.
-/

namespace Bringup

set_option autoImplicit false

/-- What is known about a tool, without the time. -/
def ToolStatus.untimed (status : ToolStatus) : ToolStatus := { status with lastChecked := ⟨0, 0⟩ }

namespace ToolSearch

/-! ## Sessions -/

/-- The same search, but no answer is kept. -/
def Policy.forgetful (policy : Policy) : Policy := { policy with keep := false }

/-- What a detector is asked for. -/
inductive Request
  | tool (name : String)
  | required (shell : String)
  | disassembler

inductive Reply
  | status (status : ToolStatus)
  | statuses (all : List (String × ToolStatus))
  | path (path : Option Path)

def Reply.untimed : Reply → Reply
  | status s => .status s.untimed
  | statuses all => .statuses (all.map fun entry => (entry.1, entry.2.untimed))
  | path p => .path p

def Request.perform : Request → SearchM Reply
  | tool name => return .status (← detect name)
  | required shell => return .statuses (← detectRequired shell)
  | disassembler => return .path (← findDisassembler)

/-- The tools that a request looks up, in order. -/
def Request.names : Request → List String
  | tool name => [name]
  | required shell => requiredNames shell
  | disassembler => [disassemblerTool]

/-- The detector after some requests, each with the host that it meets. -/
def Detector.after (d : Detector) : List (Request × Host) → Detector
  | [] => d
  | (request, h) :: rest => Detector.after ((request.perform.run d).run h).1.2 rest

/-- A tool that was looked up, between two states of the host. -/
structure Lookup where
  name : String
  before : Host
  status : ToolStatus
  after : Host

def Lookup.made (l : Lookup) : List Call := l.after.calls.drop l.before.calls.length

/-- The lookups of some tools, one after the other. -/
def lookups : List String → Detector → Host → List Lookup
  | [], _, _ => []
  | name :: names, d, h =>
    ⟨name, h, (((detect name).run d).run h).1.1, (((detect name).run d).run h).2⟩
      :: lookups names (((detect name).run d).run h).1.2 (((detect name).run d).run h).2

def Detector.history (d : Detector) : List (Request × Host) → List Lookup
  | [] => []
  | (request, h) :: rest =>
    lookups request.names d h ++ Detector.history ((request.perform.run d).run h).1.2 rest

/-- The tool was looked for, at a time that the clock gave meanwhile. -/
def Lookup.Fresh (policy : Policy) (l : Lookup) : Prop :=
  ∃ n, l.before.readings ≤ n ∧ n < l.after.readings ∧
    l.status = finding policy l.name l.before (l.before.clock n)

/-- The status was found when the tool was looked up before, and that is not too long ago. -/
def Lookup.Recalls (policy : Policy) (past : List Lookup) (l : Lookup) : Prop :=
  policy.keep = true ∧
    (∃ l₀ ∈ past, l₀.name = l.name ∧ l₀.status = l.status ∧ l₀.Fresh policy) ∧
    nanoseconds l.status.lastChecked ≤ nanoseconds (l.before.clock l.before.readings) ∧
    nanoseconds (l.before.clock l.before.readings) - nanoseconds l.status.lastChecked < policy.lifetime

section

variable {policy : Policy} {past : List Lookup} {name : String} {d d' : Detector} {h h' : Host} {status : ToolStatus}

theorem lookups_cons (hrun : ((detect name).run d).run h = ((status, d'), h')) (names : List String) :
    lookups (name :: names) d h = ⟨name, h, status, h'⟩ :: lookups names d' h' := by
  rw [lookups, hrun]

theorem run_detectAll_cons (hrun : ((detect name).run d).run h = ((status, d'), h')) (names : List String) :
    ((detectAll (name :: names)).run d).run h =
      let rest := ((detectAll names).run d').run h'
      (((name, status) :: rest.1.1, rest.1.2), rest.2) := by
  rw [detectAll, StateT.run_bind, HostM.run_bind, hrun]
  rfl

theorem fst_detectAll (names : List String) (d : Detector) (h : Host) :
    (((detectAll names).run d).run h).1.1 = (lookups names d h).map fun l => (l.name, l.status) := by
  induction names generalizing d h with
  | nil => rfl
  | cons name names ih =>
    obtain ⟨status, d', h', hrun, -⟩ := answered_detect d name h
    rw [run_detectAll_cons hrun, lookups_cons hrun, List.map_cons, ← ih]

theorem name_lookups (names : List String) (d : Detector) (h : Host) :
    (lookups names d h).map Lookup.name = names := by
  induction names generalizing d h with
  | nil => rfl
  | cons name names ih => rw [lookups, List.map_cons, ih]

theorem detector_perform (request : Request) (d : Detector) (h : Host) :
    ((request.perform.run d).run h).1.2 = (((detectAll request.names).run d).run h).1.2 := by
  cases request with
  | tool name => rfl
  | required shell => rfl
  | disassembler => rfl

/-! ## Where answers come from -/

/-- The answers that are kept were found by lookups of the past. -/
structure Recorded (policy : Policy) (past : List Lookup) (d : Detector) : Prop where
  same : d.policy = policy
  kept : ∀ name status, d.kept.lookup name = some status →
    ∃ l ∈ past, l.name = name ∧ l.status = status ∧ l.Fresh policy

theorem Recorded.mono {more : List Lookup} (hd : Recorded policy past d) (hsub : past ⊆ more) :
    Recorded policy more d := by
  refine ⟨hd.same, fun name status hlookup => ?_⟩
  obtain ⟨l, hl, hfresh⟩ := hd.kept name status hlookup
  exact ⟨l, hsub hl, hfresh⟩

theorem lookup_keeping (d : Detector) (name other : String) (status : ToolStatus) :
    (d.keeping name status).kept.lookup other = if other = name then some status else d.kept.lookup other := by
  rw [Detector.keeping]
  dsimp only
  rw [List.lookup_cons]
  by_cases hother : other = name
  · rw [if_pos hother, beq_iff_eq.mpr hother]
  · rw [if_neg hother, beq_eq_false_iff_ne.mpr hother]
    dsimp only
    induction d.kept with
    | nil => rfl
    | cons k kept ih =>
      obtain ⟨key, value⟩ := k
      by_cases hkey : key = name
      · rw [List.filter_cons_of_neg (by simpa using hkey), ih, List.lookup_cons,
          beq_eq_false_iff_ne.mpr (hkey ▸ hother)]
      · rw [List.filter_cons_of_pos (by simpa using hkey), List.lookup_cons, List.lookup_cons, ih]

theorem Recorded.keeping (hd : Recorded policy past d) {l : Lookup} (hl : l.Fresh policy) :
    Recorded policy (past ++ [l]) (d.keeping l.name l.status) := by
  refine ⟨hd.same, fun name status hlookup => ?_⟩
  rw [lookup_keeping] at hlookup
  by_cases hname : name = l.name
  · rw [if_pos hname] at hlookup
    cases hlookup
    exact ⟨l, List.mem_append_right _ (List.mem_singleton_self l), hname.symm, rfl, hl⟩
  · rw [if_neg hname] at hlookup
    exact (hd.mono (List.subset_append_left past [l])).kept name status hlookup

/-- A lookup finds the tool or recalls an earlier lookup, and what is kept then was found. -/
theorem recorded_detect (hd : Recorded policy past d) (hrun : ((detect name).run d).run h = ((status, d'), h')) :
    Recorded policy (past ++ [⟨name, h, status, h'⟩]) d' ∧
      (Lookup.Fresh policy ⟨name, h, status, h'⟩ ∨ Lookup.Recalls policy past ⟨name, h, status, h'⟩) := by
  obtain ⟨status', d'', h'', hrun', hanswered⟩ := answered_detect d name h
  rw [hrun] at hrun'
  cases hrun'
  have hstays := hd.mono (List.subset_append_left past [⟨name, h, status, h'⟩])
  cases hanswered with
  | kept hkeep hkept hrecent hlike =>
    rw [hd.same] at hkeep hrecent
    rw [isRecent, Bool.and_eq_true, decide_eq_true_eq, decide_eq_true_eq] at hrecent
    exact ⟨hstays, .inr ⟨hkeep, hd.kept name status hkept, hrecent⟩⟩
  | found n hn hlt hstatus hkept hfiles hstanding =>
    rw [hd.same] at hstatus
    have hfresh : Lookup.Fresh policy ⟨name, h, status, h'⟩ := ⟨n, hn, hlt, hstatus⟩
    refine ⟨?_, .inl hfresh⟩
    rcases hkept with rfl | rfl
    · exact hstays
    · exact hd.keeping hfresh

theorem recorded_detectAll (hd : Recorded policy past d) (names : List String) (h : Host) :
    Recorded policy (past ++ lookups names d h) (((detectAll names).run d).run h).1.2 ∧
      ∀ earlier l later, lookups names d h = earlier ++ l :: later →
        l.Fresh policy ∨ l.Recalls policy (past ++ earlier) := by
  -- Each lookup adds to the past of the next, so the induction is over every past and every detector that goes with it.
  induction names generalizing past d h with
  | nil =>
    refine ⟨(List.append_nil past).symm ▸ hd, fun earlier l later hsplit => ?_⟩
    cases List.append_ne_nil_of_right_ne_nil earlier (List.cons_ne_nil l later) hsplit.symm
  | cons name names ih =>
    obtain ⟨status, d', h', hrun, -⟩ := answered_detect d name h
    obtain ⟨hnext, hfirst⟩ := recorded_detect hd hrun
    obtain ⟨hlast, hrest⟩ := ih hnext h'
    rw [List.append_assoc] at hlast
    rw [run_detectAll_cons hrun, lookups_cons hrun]
    refine ⟨hlast, fun earlier l later hsplit => ?_⟩
    cases earlier with
    | nil =>
      cases hsplit
      rw [List.append_nil]
      exact hfirst
    | cons l₀ earlier =>
      obtain ⟨rfl, htail⟩ := List.cons.inj hsplit
      have hl := hrest earlier l later htail
      rw [List.append_assoc] at hl
      exact hl

theorem recorded_session (hd : Recorded policy past d) (requests : List (Request × Host)) :
    Recorded policy (past ++ d.history requests) (d.after requests) := by
  induction requests generalizing past d with
  | nil =>
    rw [Detector.history, List.append_nil]
    exact hd
  | cons call rest ih =>
    obtain ⟨request, h⟩ := call
    have hnext := (recorded_detectAll hd request.names h).1
    rw [← detector_perform] at hnext
    rw [Detector.history, Detector.after, ← List.append_assoc]
    exact ih hnext

theorem recorded_new (policy : Policy) : Recorded policy [] { policy } :=
  ⟨rfl, fun _ _ hlookup => by cases hlookup⟩

theorem Lookup.Fresh.isAbsolute {l : Lookup} {tool : Path} (hfresh : l.Fresh policy)
    (htool : l.status.path = some tool) : tool.isAbsolute = true := by
  obtain ⟨n, -, -, hstatus⟩ := hfresh
  rw [hstatus] at htool
  exact isAbsolute_of_path_finding htool

/-- No path of the disassembler is dropped for not being absolute. -/
theorem findDisassembler_of_recorded (hd : Recorded policy past d) (h : Host) :
    ((findDisassembler.run d).run h).1.1 = (((detect disassemblerTool).run d).run h).1.1.path := by
  change (((detect disassemblerTool).run d).run h).1.1.path.filter Path.isAbsolute = _
  obtain ⟨status, d', h', hrun, -⟩ := answered_detect d disassemblerTool h
  have habsolute : ∀ tool, status.path = some tool → tool.isAbsolute = true := by
    intro tool htool
    rcases (recorded_detect hd hrun).2 with hfresh | ⟨-, ⟨l, -, -, hstatus, hfresh⟩, -⟩
    · exact hfresh.isAbsolute htool
    · exact hfresh.isAbsolute (hstatus ▸ htool)
  rw [hrun]
  dsimp only
  cases htool : status.path with
  | none => rfl
  | some tool => rw [Option.filter_some, if_pos (habsolute tool htool)]

end

/-! ## As long as nothing changes -/

def known (policy : Policy) (name : String) (h : Host) : ToolStatus := finding policy name h ⟨0, 0⟩

/-- What there is to reply. -/
def Request.plain (policy : Policy) (h : Host) : Request → Reply
  | tool name => .status (known policy name h)
  | required shell => .statuses ((requiredNames shell).map fun name => (name, known policy name h))
  | disassembler => .path ((known policy disassemblerTool h).path.filter Path.isAbsolute)

/-- The search for the tool leaves the files as they are. -/
def Harmless (policy : Policy) (h : Host) (name : String) : Prop :=
  ((detectNow policy name).run h).2.files = h.files

theorem harmless_iff (policy : Policy) (h : Host) (name : String) :
    Harmless policy h name ↔ searchedFiles policy name h = h.files := by
  obtain ⟨n, h', -, -, hrun, hfiles, -⟩ := run_detectNow policy name h
  rw [Harmless, hrun, hfiles]

theorem untimed_finding (policy : Policy) (name : String) (h : Host) (time : Moment) :
    (finding policy name h time).untimed = known policy name h := by
  rw [known, finding, finding]
  cases foundIn policy name h with
  | none => rfl
  | some dir => rfl

section

variable {policy : Policy} {past : List Lookup} {name : String} {d d' : Detector} {h₀ h h' : Host}
  {status : ToolStatus}

theorem like_detect (hlike : h₀.Like h) (hharmless : Harmless d.policy h₀ name)
    (hrun : ((detect name).run d).run h = ((status, d'), h')) : h₀.Like h' ∧ d'.policy = d.policy := by
  obtain ⟨status', d'', h'', hrun', hanswered⟩ := answered_detect d name h
  rw [hrun] at hrun'
  cases hrun'
  cases hanswered with
  | kept hkeep hkept hrecent hafter => exact ⟨hlike.trans hafter, rfl⟩
  | found n hn hlt hstatus hkept hfiles hstanding =>
    rw [searchedFiles_of_like hlike, (harmless_iff ..).mp hharmless] at hfiles
    have hstanding := hstanding.trans hlike.standing
    refine ⟨⟨⟨hfiles, congrArg Host.Standing.cwd hstanding⟩, hstanding⟩, ?_⟩
    rcases hkept with rfl | rfl
    · rfl
    · rfl

theorem like_lookups (hlike : h₀.Like h) {names : List String}
    (hharmless : ∀ name ∈ names, Harmless d.policy h₀ name) :
    ∀ l ∈ lookups names d h, h₀.Like l.before := by
  induction names generalizing d h with
  | nil => exact fun l hl => absurd hl List.not_mem_nil
  | cons name names ih =>
    obtain ⟨status, d', h', hrun, -⟩ := answered_detect d name h
    obtain ⟨hafter, hpolicy⟩ := like_detect hlike (hharmless name List.mem_cons_self) hrun
    rw [lookups_cons hrun]
    intro l hl
    rcases List.mem_cons.mp hl with rfl | hl
    · exact hlike
    · refine ih hafter (fun other hother => ?_) l hl
      rw [hpolicy]
      exact hharmless other (List.mem_cons_of_mem _ hother)

/-- A call during which nothing changes. -/
def Quiet (policy : Policy) (h₀ : Host) (call : Request × Host) : Prop :=
  h₀.Like call.2 ∧ ∀ name ∈ call.1.names, Harmless policy h₀ name

theorem like_history {requests : List (Request × Host)} (hd : Recorded policy past d)
    (hquiet : ∀ call ∈ requests, Quiet policy h₀ call) : ∀ l ∈ d.history requests, h₀.Like l.before := by
  induction requests generalizing past d with
  | nil => exact fun l hl => absurd hl List.not_mem_nil
  | cons call rest ih =>
    obtain ⟨request, h⟩ := call
    obtain ⟨hlike, hharmless⟩ := hquiet _ List.mem_cons_self
    have hnext := (recorded_detectAll hd request.names h).1
    rw [← detector_perform] at hnext
    intro l hl
    rw [Detector.history] at hl
    rcases List.mem_append.mp hl with hl | hl
    · exact like_lookups hlike (hd.same ▸ hharmless) l hl
    · exact ih hnext (fun call hcall => hquiet call (List.mem_cons_of_mem _ hcall)) l hl

theorem Lookup.Fresh.untimed {l : Lookup} (hfresh : l.Fresh policy) (hlike : h₀.Like l.before) :
    l.status.untimed = known policy l.name h₀ := by
  obtain ⟨n, -, -, hstatus⟩ := hfresh
  rw [hstatus, finding_of_like hlike, untimed_finding]

theorem untimed_lookups (hd : Recorded policy past d) (hpast : ∀ l ∈ past, h₀.Like l.before) {names : List String}
    (hlike : h₀.Like h) (hharmless : ∀ name ∈ names, Harmless policy h₀ name) :
    ∀ l ∈ lookups names d h, l.status.untimed = known policy l.name h₀ := by
  intro l hl
  have hlooked := like_lookups hlike (hd.same ▸ hharmless)
  obtain ⟨earlier, later, hsplit⟩ := List.append_of_mem hl
  -- An answer that is recalled was found on a host like this one, before the request or in the course of it.
  rcases (recorded_detectAll hd names h).2 earlier l later hsplit with
    hfresh | ⟨-, ⟨l₀, hmem, hname, hstatus, hfresh⟩, -⟩
  · exact hfresh.untimed (hlooked l hl)
  · have hbefore : h₀.Like l₀.before := by
      rcases List.mem_append.mp hmem with hold | hearlier
      · exact hpast l₀ hold
      · exact hlooked l₀ (hsplit ▸ List.mem_append_left _ hearlier)
    rw [← hname, ← hstatus]
    exact hfresh.untimed hbefore

theorem untimed_reply (hd : Recorded policy past d) (hpast : ∀ l ∈ past, h₀.Like l.before) {request : Request}
    (hquiet : Quiet policy h₀ (request, h)) :
    ((request.perform.run d).run h).1.1.untimed = request.plain policy h₀ := by
  have huntimed := untimed_lookups hd hpast hquiet.1 hquiet.2
  cases request with
  | tool name => exact congrArg Reply.status (huntimed _ List.mem_cons_self)
  | required shell =>
    change Reply.statuses ((((detectAll (requiredNames shell)).run d).run h).1.1.map _) = Reply.statuses _
    rw [fst_detectAll, List.map_map]
    conv => rhs; rw [← name_lookups (requiredNames shell) d h, List.map_map]
    refine congrArg Reply.statuses (List.map_congr_left fun l hl => ?_)
    exact congrArg (Prod.mk l.name) (huntimed l hl)
  | disassembler =>
    have hstatus := congrArg ToolStatus.path (huntimed _ List.mem_cons_self)
    exact congrArg (fun path => Reply.path (path.filter Path.isAbsolute)) hstatus

end

/-! ## Programs that are asked -/

/-- At most one program was started, to tell its version. -/
def AsksOnce (made : List Call) : Prop := made.length ≤ 1 ∧ ∀ call ∈ made, call.args = ["--version"]

theorem asksOnce_nil : AsksOnce [] := ⟨Nat.zero_le _, fun _ hcall => absurd hcall List.not_mem_nil⟩

open HostM in
theorem makes_probeVersion (tool : Path) : Makes (probeVersion tool) fun _ made => AsksOnce made := by
  refine (makes_execute tool.spelling ["--version"] none).bind fun result made hmade => ?_
  cases result with
  | error e =>
    obtain rfl : made = [] := hmade
    exact makes_pure asksOnce_nil
  | ok output =>
    obtain ⟨call, rfl, hargs, -⟩ := hmade
    refine makes_pure ⟨Nat.le_refl 1, fun other hother => ?_⟩
    rw [List.mem_singleton.mp hother, hargs]

open HostM in
theorem makes_detectNow (policy : Policy) (name : String) :
    Makes (detectNow policy name) fun _ made => AsksOnce made := by
  have hget : Silent (get : HostM Host) := fun _ => rfl
  refine (closed_silent.log _ _ _).bind fun _ => hget.bind fun h => ?_
  refine (closed_silent.firstWith name _).bind fun found => ?_
  cases found with
  | none => exact (closed_silent.log _ _ _).bind fun _ => closed_silent.clock.bind fun _ => makes_pure asksOnce_nil
  | some place =>
    refine (makes_probeVersion place.2).bind fun version made hmade => ?_
    refine (closed_silent.log _ _ _).bind fun _ => closed_silent.clock.bind fun _ => ?_
    exact makes_done (P := fun _ made => AsksOnce made) hmade

open HostM in
theorem makes_detect (name : String) (d : Detector) :
    Makes ((detect name).run d) fun _ made => AsksOnce made := by
  by_cases hkeep : d.policy.keep = true
  · rw [detect_of_keep hkeep]
    refine (closed_silent.recent d name).bind fun found => ?_
    cases found with
    | some status => exact (closed_silent.log _ _ _).bind fun _ => makes_pure asksOnce_nil
    | none =>
      refine (makes_detectNow d.policy name).bind fun status made hmade => ?_
      exact (closed_silent.log _ _ _).bind fun _ => makes_done (P := fun _ made => AsksOnce made) hmade
  · rw [detect_of_not_keep (Bool.eq_false_iff.mpr hkeep)]
    refine (makes_detectNow d.policy name).bind fun status made hmade => ?_
    exact makes_done (P := fun _ made => AsksOnce made) hmade

theorem calls_detectAll (names : List String) (d : Detector) (h : Host) :
    (((detectAll names).run d).run h).2.calls = h.calls ++ (lookups names d h).flatMap Lookup.made ∧
      ∀ l ∈ lookups names d h, l.after.calls = l.before.calls ++ l.made ∧ AsksOnce l.made := by
  induction names generalizing d h with
  | nil => exact ⟨(List.append_nil _).symm, fun l hl => absurd hl List.not_mem_nil⟩
  | cons name names ih =>
    obtain ⟨status, d', h', hrun, -⟩ := answered_detect d name h
    obtain ⟨made, hcalls, hmade⟩ := makes_detect name d h
    rw [hrun] at hcalls
    dsimp only at hcalls
    have hfirst : Lookup.made ⟨name, h, status, h'⟩ = made := by
      rw [Lookup.made, hcalls, List.drop_left]
    obtain ⟨hrest, hall⟩ := ih d' h'
    rw [run_detectAll_cons hrun, lookups_cons hrun, List.flatMap_cons, hfirst, ← List.append_assoc, ← hcalls]
    refine ⟨hrest, fun l hl => ?_⟩
    rcases List.mem_cons.mp hl with rfl | hl
    · rw [hfirst]
      exact ⟨hcalls, hmade⟩
    · exact hall l hl

theorem nodup_eraseDups (names : List String) : names.eraseDups.Nodup := by
  induction hn : names.length using Nat.strong_induction_on generalizing names with
  | _ n ih =>
    cases names with
    | nil => exact List.nodup_nil
    | cons name names =>
      have hlt : (names.filter fun other => !other == name).length < n :=
        hn ▸ Nat.lt_succ_of_le (List.length_filter_le _ names)
      rw [List.eraseDups_cons, List.nodup_cons, List.mem_eraseDups]
      exact ⟨by simp, ih _ hlt _ rfl⟩

theorem requiredNames_spec (shell : String) :
    (requiredNames shell).Nodup ∧
      ∀ name, name ∈ requiredNames shell ↔ name ∈ ["git", "bash", shell, "addr2line"] :=
  ⟨nodup_eraseDups _, fun _ => List.mem_eraseDups⟩

/-! ## Replies -/

/-- A request is replied to with what its lookups found. -/
inductive Replies : Request → List Lookup → Reply → Prop
  | tool (l : Lookup) : Replies (.tool l.name) [l] (.status l.status)
  | required {shell : String} {looked : List Lookup} (hnames : looked.map Lookup.name = requiredNames shell) :
      Replies (.required shell) looked (.statuses (looked.map fun l => (l.name, l.status)))
  | disassembler {l : Lookup} (hname : l.name = disassemblerTool) :
      Replies .disassembler [l] (.path (l.status.path.filter Path.isAbsolute))

theorem replies_perform (request : Request) (d : Detector) (h : Host) :
    Replies request (lookups request.names d h) ((request.perform.run d).run h).1.1 ∧
      ((request.perform.run d).run h).2 = (((detectAll request.names).run d).run h).2 := by
  cases request with
  | tool name => exact ⟨.tool ⟨name, h, _, _⟩, rfl⟩
  | required shell =>
    have hreply : (((Request.required shell).perform.run d).run h).1.1 =
        .statuses ((lookups (requiredNames shell) d h).map fun l => (l.name, l.status)) :=
      congrArg Reply.statuses (fst_detectAll _ d h)
    rw [hreply]
    exact ⟨.required (name_lookups ..), rfl⟩
  | disassembler => exact ⟨.disassembler rfl, rfl⟩

/-- A detector that keeps answers replies as one that does not, as long as nothing changes. Whatever changes, an answer
was found now or for the same tool within the time that answers are kept. Each tool is asked at most once. -/
theorem keeping_answers_is_transparent (policy : Policy) (past : List (Request × Host)) (request : Request) (h : Host) :
    ∃ reply d' h', (request.perform.run (Detector.after { policy } past)).run h = ((reply, d'), h') ∧
      ((∀ call ∈ past ++ [(request, h)], Quiet policy h call) → reply.untimed =
        ((request.perform.run { policy := policy.forgetful }).run h).1.1.untimed) ∧
      ∃ looked, looked = lookups request.names (Detector.after { policy } past) h ∧ Replies request looked reply ∧
        (∀ earlier l later, looked = earlier ++ l :: later →
          l.Fresh policy ∨ l.Recalls policy (Detector.history { policy } past ++ earlier)) ∧
        h'.calls = h.calls ++ looked.flatMap Lookup.made ∧ (∀ l ∈ looked, AsksOnce l.made) ∧
        ∀ shell, (requiredNames shell).Nodup ∧
          ∀ name, name ∈ requiredNames shell ↔ name ∈ ["git", "bash", shell, "addr2line"] := by
  have hrecorded := recorded_session (recorded_new policy) past
  rw [List.nil_append] at hrecorded
  have huntimed : (∀ call ∈ past ++ [(request, h)], Quiet policy h call) →
      ((request.perform.run (Detector.after { policy } past)).run h).1.1.untimed =
        ((request.perform.run { policy := policy.forgetful }).run h).1.1.untimed := by
    intro hquiet
    have hlast := hquiet (request, h) (List.mem_append_right _ (List.mem_singleton_self _))
    have hpast : ∀ l ∈ Detector.history { policy } past, h.Like l.before :=
      like_history (recorded_new policy) fun call hcall => hquiet call (List.mem_append_left _ hcall)
    -- The detector that keeps nothing is a new one, with nothing in its past.
    have hplain := untimed_reply (recorded_new policy.forgetful)
      (fun l hl => absurd hl List.not_mem_nil) (hlast : Quiet policy.forgetful h (request, h))
    rw [untimed_reply hrecorded hpast hlast, hplain]
    cases request with
    | tool name => rfl
    | required shell => rfl
    | disassembler => rfl
  obtain ⟨hreplies, hhost⟩ := replies_perform request (Detector.after { policy } past) h
  obtain ⟨hcalls, hasked⟩ := calls_detectAll request.names (Detector.after { policy } past) h
  exact ⟨_, _, _, rfl, huntimed, _, rfl, hreplies, (recorded_detectAll hrecorded request.names h).2,
    hhost ▸ hcalls, fun l hl => (hasked l hl).2, requiredNames_spec⟩

/-- A host with one tool, at a time. -/
def gitHost (seconds : Nat) : Host where
  files := ⟨[(["bin"], .directory),
    (["bin", "git"], .program [{ stdout := Text.Utf8.encode "git version 2.43.0" }] true)]⟩
  searchPath := some "/bin"
  clock := fun n => ⟨seconds + n, 0⟩

def gitPolicy : Policy := { keepSeconds := 600 }

/-- Two requests between which the clock is set back. -/
def gitPast : List (Request × Host) := [(.tool "git", gitHost 900), (.tool "git", gitHost 100)]

theorem keeping_answers_is_transparent_gitPast :
    (∀ call ∈ gitPast ++ [(.required "git", gitHost 200)], Quiet gitPolicy (gitHost 200) call) ∧
      ∃ reply d' h',
        ((Request.required "git").perform.run (Detector.after { policy := gitPolicy } gitPast)).run (gitHost 200) =
          ((reply, d'), h') ∧
        reply.untimed =
          (((Request.required "git").perform.run { policy := gitPolicy.forgetful }).run (gitHost 200)).1.1.untimed := by
  have hharmless : ∀ name ∈ requiredNames "git", Harmless gitPolicy (gitHost 200) name := by
    intro name hname
    have hfiles : ∀ name ∈ requiredNames "git",
        searchedFiles gitPolicy name (gitHost 200) = (gitHost 200).files := by
      decide +kernel
    exact (harmless_iff ..).mpr (hfiles name hname)
  have hgit : ∀ name ∈ [("git" : String)], Harmless gitPolicy (gitHost 200) name := by
    intro name hname
    rw [List.mem_singleton.mp hname]
    exact hharmless "git" (by decide)
  have hquiet : ∀ call ∈ gitPast ++ [(.required "git", gitHost 200)], Quiet gitPolicy (gitHost 200) call := by
    intro call hcall
    rcases List.mem_append.mp hcall with hpast | hlast
    · rcases List.mem_cons.mp hpast with rfl | hpast
      · exact ⟨⟨⟨rfl, rfl⟩, rfl⟩, hgit⟩
      · rw [List.mem_singleton.mp hpast]
        exact ⟨⟨⟨rfl, rfl⟩, rfl⟩, hgit⟩
    · rw [List.mem_singleton.mp hlast]
      exact ⟨.refl _, hharmless⟩
  obtain ⟨reply, d', h', hrun, hreply, -⟩ :=
    keeping_answers_is_transparent gitPolicy gitPast (.required "git") (gitHost 200)
  exact ⟨hquiet, reply, d', h', hrun, hreply hquiet⟩

end ToolSearch

end Bringup
