import Bringup.Proofs.Closure
import Bringup.Proofs.LastStage

/-!
# Programs that are started

* `HostM.Makes`: a rule for each combinator, on what a computation gives and which programs it starts on the way.
* `lastCode`: the code of the last program, if it is one of some commands.
* `Attempted`: a step of a run as its commands went. `Git.makes_checkout`, `Git.makes_pull`, … say so of each step.
-/

namespace Bringup

set_option autoImplicit false

/-! ## The programs that a computation starts -/

theorem Host.searchProgram_cons (h : Host) (cwd : Place) (name : Text.Raw) (dir : Path) (dirs : List Path)
    (denied : Bool) (last : IoError) :
    h.searchProgram cwd name (dir :: dirs) denied last =
      match h.programAt cwd (dir.child name) with
      | .ok found => .ok found
      | .error e =>
        if passesOver e then h.searchProgram cwd name dirs (denied || e == .permissionDenied) e else .error e := by
  rfl

namespace HostM

variable {α β : Type}

/-- No program is started. -/
def Silent (x : HostM α) : Prop := ∀ h, (x.run h).2.calls = h.calls

/-- Whatever the host, the result and the programs that are started are as `P` says. -/
def Makes (x : HostM α) (P : α → List Call → Prop) : Prop :=
  ∀ h, ∃ made, (x.run h).2.calls = h.calls ++ made ∧ P (x.run h).1 made

variable {x : HostM α} {f : α → HostM β} {P : α → List Call → Prop} {Q : β → List Call → Prop}

theorem Silent.makes (hx : Silent x) (hP : ∀ a, P a []) : Makes x P := fun h =>
  ⟨[], (hx h).trans (List.append_nil _).symm, hP _⟩

theorem makes_pure {a : α} (hP : P a []) : Makes (pure a) P := fun _ => ⟨[], (List.append_nil _).symm, hP⟩

theorem makes_done {a : α} {made : List Call} (hP : P a made) : Makes (pure a) fun b more => P b (made ++ more) :=
  makes_pure (by rw [List.append_nil]; exact hP)

theorem Makes.bind (hx : Makes x P) (hf : ∀ a made, P a made → Makes (f a) fun b more => Q b (made ++ more)) :
    Makes (x >>= f) Q := by
  intro h
  obtain ⟨made, hmade, hP⟩ := hx h
  obtain ⟨more, hmore, hQ⟩ := hf _ made hP (x.run h).2
  refine ⟨made ++ more, ?_, hQ⟩
  rw [run_bind, hmore, hmade, List.append_assoc]

theorem Silent.bind (hx : Silent x) (hf : ∀ a, Makes (f a) Q) : Makes (x >>= f) Q := by
  intro h
  obtain ⟨made, hmade, hQ⟩ := hf (x.run h).1 (x.run h).2
  exact ⟨made, by rw [run_bind, hmade, hx h], hQ⟩

theorem Makes.mono {P' : α → List Call → Prop} (hx : Makes x P) (hP : ∀ a made, P a made → P' a made) : Makes x P' :=
  fun h => (hx h).imp fun made hmade => ⟨hmade.1, hP _ made hmade.2⟩

theorem silent_writeText (path : Path) (text : String) : Silent (writeText path text) := by
  intro h
  cases hwrite : h.files.write h.cwd path (Text.Utf8.encode text) with
  | ok files => rw [run_writeText_ok hwrite]
  | error e => rw [run_writeText_error hwrite]

theorem closed_silent : Closed @Silent :=
  closed_of_relation (R := fun h h' => h'.calls = h.calls) (fun _ _ _ _ _ => rfl) fun _ _ _ h h' => h'.trans h

/-- A program was started with the arguments and ended so; or none was started. -/
def Started (args : List String) : Except IoError ExitStatus → List Call → Prop
  | .ok status, made => ∃ call, made = [call] ∧ call.args = args ∧ call.status = status
  | .error _, made => made = []

section

variable {h : Host} {name : Text.Raw} {args : List String} {cwd : Option Path}

theorem run_execute_error {e : IoError} (hlaunch : h.launch name args cwd = .error e) :
    (execute name args cwd).run h = (.error e, h) := by
  have hget : (get : HostM Host).run h = (h, h) := rfl
  rw [execute, run_bind, hget]
  dsimp only
  rw [hlaunch]
  rfl

theorem run_execute_ok {dir place : Place} {rules : List Rule} {rule : Rule}
    (hlaunch : h.launch name args cwd = .ok (dir, place, rules))
    (hrule : (rules.find? fun r => r.applies args).getD {} = rule) :
    (execute name args cwd).run h = (.ok ⟨rule.status, rule.stdout, rule.stderr⟩,
      { h with
        files := h.files.makeAll rule.files
        calls := h.calls ++ [⟨place.getLastD "", args, dir, rule.status⟩] }) := by
  have hget : (get : HostM Host).run h = (h, h) := rfl
  rw [execute, run_bind, hget]
  dsimp only
  rw [hlaunch]
  dsimp only
  rw [hrule]
  rfl

end

theorem makes_execute (name : Text.Raw) (args : List String) (cwd : Option Path) :
    Makes (execute name args cwd) fun result made => Started args (result.map Output.status) made := by
  intro h
  cases hlaunch : h.launch name args cwd with
  | error e =>
    rw [run_execute_error hlaunch]
    exact ⟨[], (List.append_nil _).symm, rfl⟩
  | ok found =>
    obtain ⟨dir, place, rules⟩ := found
    rw [run_execute_ok hlaunch rfl]
    exact ⟨[_], rfl, _, rfl, rfl, rfl⟩

theorem makes_capture (name : String) (args : List String) (cwd : Option Path) :
    Makes (capture name args cwd) fun result made => Started args (result.map Output.status) made :=
  (closed_silent.log _ _ _).bind fun _ => makes_execute name args cwd

theorem makes_stream (name : String) (args : List String) (cwd : Option Path) :
    Makes (stream name args cwd) (Started args) := by
  refine (closed_silent.log _ _ _).bind fun _ => (makes_execute name args cwd).bind fun result made hmade => ?_
  cases result with
  | error e => exact makes_done hmade
  | ok output =>
    have hsilent : Silent (warnBytes (output.stdout ++ output.stderr)) := fun _ => rfl
    exact hsilent.bind fun _ => makes_done hmade

end HostM

/-! ## Commands and their codes -/

/-- The code, other than zero, that the last program ended with, if it is a command of ours. -/
def lastCode (own : List String → Bool) (calls : List Call) : Option Nat :=
  calls.getLast?.bind fun call => if own call.args then call.status.code?.filter (· != 0) else none

/-- A command failed with this code: the program ended with it, or none was started. -/
def Stopped (args : List String) (code : Option Int) (made : List Call) : Prop :=
  (made = [] ∧ code = none) ∨
    ∃ call, made = [call] ∧ call.args = args ∧ call.status.success = false ∧ code = Git.codeOf call.status

/-- The last program succeeded. -/
def EndsWell (made : List Call) : Prop := ∃ before call, made = before ++ [call] ∧ call.status.success = true

/-- A step failed with this code at a command of its own. What it started before succeeded or is no command of
its own. -/
def FailedAt (own : List String → Bool) (code : Option Int) (made : List Call) : Prop :=
  ∃ before more args, made = before ++ more ∧ (∀ call ∈ before, call.status.success = true ∨ own call.args = false) ∧
    own args = true ∧ Stopped args code more

/-- The code that a script ended with. -/
def ProvisionFailure.code : ProvisionFailure → Option Int
  | failed _ code => code
  | _ => none

/-- A step succeeded, or failed at a command of its own. -/
def Attempted {ε : Type} (own : List String → Bool) (code : ε → Option Int) : Except ε Unit → List Call → Prop
  | .ok _, made => EndsWell made
  | .error e, made => FailedAt own (code e) made

section

variable {own : List String → Bool} {calls made : List Call} {code : Option Int} {args : List String}

theorem lastCode_concat (own : List String → Bool) (calls : List Call) (call : Call) :
    lastCode own (calls ++ [call]) = if own call.args then call.status.code?.filter (· != 0) else none := by
  rw [lastCode, List.getLast?_concat, Option.bind_some]

theorem lastCode_concat_eq_none (own : List String → Bool) (calls : List Call) {call : Call}
    (hcall : call.status.success = true ∨ own call.args = false) : lastCode own (calls ++ [call]) = none := by
  rw [lastCode_concat]
  rcases hcall with hsuccess | hother
  · rw [(ExitStatus.success_iff _).mp hsuccess]
    split <;> rfl
  · rw [hother]
    rfl

theorem lastCode_append_eq_none (hcalls : lastCode own calls = none)
    (hmade : ∀ call ∈ made, call.status.success = true ∨ own call.args = false) :
    lastCode own (calls ++ made) = none := by
  rcases List.eq_nil_or_concat' made with rfl | ⟨before, call, rfl⟩
  · rw [List.append_nil]
    exact hcalls
  · rw [← List.append_assoc]
    exact lastCode_concat_eq_none own _ (hmade call (List.mem_append_right _ (List.mem_singleton_self _)))

theorem Stopped.code_eq (hstopped : Stopped args code made) (hown : own args = true)
    (hcalls : lastCode own calls = none) : code = (lastCode own (calls ++ made)).map Int.ofNat := by
  rcases hstopped with ⟨rfl, rfl⟩ | ⟨call, rfl, rfl, hfailed, rfl⟩
  · rw [List.append_nil, hcalls]
    rfl
  · rw [lastCode_concat, if_pos hown, Git.codeOf]
    cases hcode : call.status.code? with
    | none => rfl
    | some n =>
      have hn : (n != 0) = true := by
        rw [bne_iff_ne]
        rintro rfl
        rw [ExitStatus.success, hcode] at hfailed
        cases hfailed
      rw [Option.filter_some, if_pos hn]

/-- The code of a step that failed is that of the last program, if it is a command of the step. -/
theorem FailedAt.code_eq (hfailed : FailedAt own code made) (hcalls : lastCode own calls = none) :
    code = (lastCode own (calls ++ made)).map Int.ofNat := by
  obtain ⟨before, more, args, rfl, hbefore, hown, hstopped⟩ := hfailed
  rw [← List.append_assoc]
  exact hstopped.code_eq hown (lastCode_append_eq_none hcalls hbefore)

end

/-- A command succeeded, or failed with its code. -/
def Commanded {α : Type} (args : List String) : Except CommandFailure α → List Call → Prop
  | .ok _, made => ∃ call, made = [call] ∧ call.args = args ∧ call.status.success = true
  | .error e, made => Stopped args e.exitCode made

theorem Commanded.attempted {own : List String → Bool} {args : List String} {result : Except CommandFailure Unit}
    {made : List Call} (hmade : Commanded args result made) (hown : own args = true) (before : List Call)
    (hbefore : ∀ call ∈ before, call.status.success = true ∨ own call.args = false) :
    Attempted own CommandFailure.exitCode result (before ++ made) := by
  cases result with
  | ok u =>
    obtain ⟨call, rfl, _, hsuccess⟩ := hmade
    exact ⟨before, call, rfl, hsuccess⟩
  | error e => exact ⟨before, made, args, rfl, hbefore, hown, hmade⟩

theorem Commanded.args {α : Type} {args : List String} {result : Except CommandFailure α} {made : List Call}
    (hmade : Commanded args result made) : ∀ call ∈ made, call.args = args := by
  intro call hcall
  cases result with
  | ok a =>
    obtain ⟨made, rfl, hargs, _⟩ := hmade
    rw [List.mem_singleton.mp hcall, hargs]
  | error e =>
    rcases hmade with ⟨rfl, _⟩ | ⟨made, rfl, hargs, _⟩
    · cases hcall
    · rw [List.mem_singleton.mp hcall, hargs]

namespace Git

open HostM

variable (program : String)

theorem makes_ask (repo : Path) (args : List String) : Makes (Git.ask program repo args) (Commanded args) := by
  refine (makes_capture program args (some repo)).bind fun result made hmade => ?_
  cases result with
  | error e =>
    obtain rfl : made = [] := hmade
    exact makes_pure (.inl ⟨rfl, rfl⟩)
  | ok output =>
    obtain ⟨call, rfl, hargs, hstatus⟩ : ∃ call, made = [call] ∧ call.args = args ∧
      call.status = output.status := hmade
    dsimp only
    rw [← hstatus]
    cases hsuccess : call.status.success with
    | true =>
      rw [if_pos rfl]
      exact makes_pure ⟨call, rfl, hargs, hsuccess⟩
    | false =>
      rw [if_neg Bool.false_ne_true]
      exact makes_pure (.inr ⟨call, rfl, hargs, hsuccess, rfl⟩)

theorem makes_order (cwd : Option Path) (args : List String) :
    Makes (order program cwd args) (Commanded args) := by
  refine (makes_stream program args cwd).bind fun result made hmade => ?_
  cases result with
  | error e =>
    obtain rfl : made = [] := hmade
    exact makes_pure (.inl ⟨rfl, rfl⟩)
  | ok status =>
    obtain ⟨call, rfl, hargs, rfl⟩ := hmade
    dsimp only
    cases hsuccess : call.status.success with
    | true =>
      rw [if_pos rfl]
      exact makes_pure ⟨call, rfl, hargs, hsuccess⟩
    | false =>
      rw [if_neg Bool.false_ne_true]
      exact makes_pure (.inr ⟨call, rfl, hargs, hsuccess, rfl⟩)

variable {own : List String → Bool}

theorem makes_checkout (repo : Path) {revision : String} (hresolve : own (resolveArgs revision) = true)
    (hcheckout : own (checkoutArgs revision) = true) :
    Makes (checkout program repo revision) (Attempted own CommandFailure.exitCode) := by
  refine (makes_ask program repo (resolveArgs revision)).bind fun looked made hmade => ?_
  cases looked with
  | error e =>
    refine makes_done (P := Attempted own CommandFailure.exitCode) ?_
    exact ⟨[], made, resolveArgs revision, rfl, nofun, hresolve, hmade⟩
  | ok commit =>
    obtain ⟨call, rfl, _, hsuccess⟩ := hmade
    have hbefore : ∀ call' ∈ [call], call'.status.success = true ∨ own call'.args = false := by
      intro call' hcall
      rw [List.mem_singleton.mp hcall]
      exact .inl hsuccess
    refine (makes_ask program repo (checkoutArgs revision)).bind fun checked more hmore => ?_
    have hdone : ∀ result, Commanded (checkoutArgs revision) result more → Makes (pure result) fun result rest =>
        Attempted own CommandFailure.exitCode result ([call] ++ (more ++ rest)) := fun result hresult =>
      makes_done (P := fun result more => Attempted own CommandFailure.exitCode result ([call] ++ more))
        (hresult.attempted hcheckout [call] hbefore)
    cases checked with
    | error e => exact hdone (.error e) hmore
    | ok said => exact hdone (.ok ()) hmore

theorem makes_pull (repo : Path) (hpull : ∀ more, own (pullArgs ++ more) = true)
    (hbranch : own ["symbolic-ref", "--short", "refs/remotes/origin/HEAD"] = false) :
    Makes (pull program repo) (Attempted own CommandFailure.exitCode) := by
  have hasked : Makes (defaultBranch? program repo) fun _ made =>
      ∀ call ∈ made, call.status.success = true ∨ own call.args = false := by
    refine (makes_ask program repo _).bind fun result made hmade => ?_
    have hother : ∀ branch? : Option String, Makes (pure branch?) fun _ more =>
        ∀ call ∈ made ++ more, call.status.success = true ∨ own call.args = false := by
      refine fun branch? => makes_pure ?_
      rw [List.append_nil]
      exact fun call hcall => .inr (hmade.args call hcall ▸ hbranch)
    cases result with
    | error e => exact hother none
    | ok full => exact hother (branchOf? full)
  refine hasked.bind fun branch? before hbefore => ?_
  cases branch? with
  | none =>
    refine (closed_silent.log _ _ _).bind fun _ => (makes_order program _ pullArgs).mono fun result made hmade => ?_
    exact hmade.attempted (hpull []) before hbefore
  | some branch =>
    refine (closed_silent.log _ _ _).bind fun _ => (makes_order program _ _).mono fun result made hmade => ?_
    exact hmade.attempted (hpull ["origin", branch]) before hbefore

theorem makes_clone (url : String) (dest : Path) (hclone : own ["clone", url, dest.text] = true) :
    Makes (clone program url dest) (Attempted own CommandFailure.exitCode) :=
  (makes_order program none _).mono fun _ _ hmade => hmade.attempted hclone [] nofun

/-- The arguments that ask whether a directory is a work tree. -/
def workTreeArgs : List String := ["rev-parse", "--is-inside-work-tree"]

/-- The program was asked whether a directory is a work tree, if at all. -/
def TreeAsked (isTree : Bool) (made : List Call) : Prop :=
  (isTree = true → EndsWell made) ∧ ∀ call ∈ made, call.args = workTreeArgs

theorem makes_isWorkTree (repo : Path) :
    Makes (isWorkTree program repo) TreeAsked := by
  have hpresent : Silent (HostM.present (repo.child ".git")) := fun _ => rfl
  refine hpresent.bind fun there => ?_
  cases there with
  | false => exact makes_pure ⟨nofun, nofun⟩
  | true =>
    rw [if_pos rfl]
    refine (makes_ask program repo workTreeArgs).bind fun result made hmade => ?_
    cases result with
    | error e => exact makes_done (P := TreeAsked) ⟨nofun, hmade.args⟩
    | ok said =>
      refine makes_done (P := TreeAsked) ⟨fun _ => ?_, hmade.args⟩
      obtain ⟨call, rfl, _, hsuccess⟩ := hmade
      exact ⟨[], call, rfl, hsuccess⟩

/-- The program was tried out, if it could be started. -/
def TriedOut (result : Except CommandFailure Unit) (made : List Call) : Prop :=
  (∀ e, result = .error e → e.exitCode = none) ∧ ∀ call ∈ made, call.args = ["--version"]

theorem makes_ensureAvailable : Makes (ensureAvailable program) TriedOut := by
  have htried : Makes (isAvailable program) fun _ made => ∀ call ∈ made, call.args = ["--version"] := by
    refine (makes_execute program ["--version"] none).bind fun result made hmade => makes_pure ?_
    rw [List.append_nil]
    cases result with
    | error e =>
      obtain rfl : made = [] := hmade
      exact nofun
    | ok output =>
      obtain ⟨call, rfl, hargs, _⟩ := hmade
      simpa using hargs
  refine htried.bind fun available made hmade => ?_
  cases available with
  | true => exact makes_done (P := TriedOut) ⟨nofun, hmade⟩
  | false =>
    refine makes_done (P := TriedOut) ⟨fun e he => ?_, hmade⟩
    cases he
    rfl

end Git

namespace Script

open HostM

theorem makes_setup (shell script : String) (workdir : Path) {own : List String → Bool} (hown : own [script] = true) :
    Makes (setup shell script workdir) (Attempted own ProvisionFailure.code) := by
  have hpresent : Silent (HostM.isFile (workdir.child script)) := fun _ => rfl
  refine hpresent.bind fun there => ?_
  cases there with
  | false => exact makes_pure ⟨[], [], [script], rfl, nofun, hown, .inl ⟨rfl, rfl⟩⟩
  | true =>
    simp only [Bool.not_true, Bool.false_eq_true, if_false]
    refine (closed_silent.log _ _ _).bind fun _ => (makes_stream shell [script] _).bind fun result made hmade => ?_
    cases result with
    | error e =>
      obtain rfl : made = [] := hmade
      exact makes_pure ⟨[], [], [script], rfl, nofun, hown, .inl ⟨rfl, rfl⟩⟩
    | ok status =>
      obtain ⟨call, rfl, hargs, rfl⟩ := hmade
      dsimp only
      cases hsuccess : call.status.success with
      | true =>
        rw [if_pos rfl]
        refine makes_done (P := Attempted own ProvisionFailure.code) ?_
        exact ⟨[], call, rfl, hsuccess⟩
      | false =>
        rw [if_neg Bool.false_ne_true]
        refine makes_done (P := Attempted own ProvisionFailure.code) ?_
        exact ⟨[], [call], [script], rfl, nofun, hown, .inr ⟨call, rfl, hargs, hsuccess, rfl⟩⟩

end Script

end Bringup
