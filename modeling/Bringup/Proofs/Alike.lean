import Bringup.Proofs.Closure
import Bringup.Proofs.Inquiries

/-!
# Hosts that print differently

Two hosts are alike if they differ only in what programs print for the operator and in what was already shown on the
standard error.

* `Host.Alike`: the relation. `FileTree.Alike.resolve`, `Host.Alike.launch`, …: what is found on alike hosts.
* `HostM.Agree`: two computations that lead alike hosts to alike hosts, with related results.
* `HostM.Steady`: a computation that agrees with itself. It is closed under sequencing, so a whole run is steady.
-/

namespace Bringup

set_option autoImplicit false

open Bringup.Text (Bytes)

/-! ## Programs and files -/

/-- The rule by which a program answers. -/
def Rule.chosen (rules : List Rule) (args : List String) : Rule := (rules.find? fun r => r.applies args).getD {}

/-- Two rules for some arguments differ at most in what is printed for the operator. -/
structure Rule.Alike (args : List String) (r r' : Rule) : Prop where
  files : r'.files = r.files
  status : r'.status = r.status
  output : isForOperator args = false → r'.stdout = r.stdout ∧ r'.stderr = r.stderr

/-- The same, or programs that differ at most in what they print for the operator. -/
inductive Node.Alike : Node → Node → Prop
  | same (node : Node) : Alike node node
  | program {rules rules' : List Rule} (executable : Bool)
      (hrules : ∀ args, Rule.Alike args (Rule.chosen rules args) (Rule.chosen rules' args)) :
      Alike (.program rules executable) (.program rules' executable)

/-- Alike things stand in the same places. -/
def FileTree.Alike (t t' : FileTree) : Prop := ∀ place, Option.Rel Node.Alike (t.get? place) (t'.get? place)

/-- The same error, or related results. -/
inductive SameError {ε α β : Type} (R : α → β → Prop) : Except ε α → Except ε β → Prop
  | error (e : ε) : SameError R (.error e) (.error e)
  | ok {a : α} {b : β} (h : R a b) : SameError R (.ok a) (.ok b)

theorem SameError.bind {ε α β γ δ : Type} {R : α → β → Prop} {S : γ → δ → Prop} {x : Except ε α} {y : Except ε β}
    {f : α → Except ε γ} {g : β → Except ε δ} (hx : SameError R x y) (hf : ∀ a b, R a b → SameError S (f a) (g b)) :
    SameError S (x >>= f) (y >>= g) := by
  cases hx with
  | error e => exact .error e
  | ok h => exact hf _ _ h

theorem SameError.cases {ε α β : Type} {R : α → β → Prop} {x : Except ε α} {y : Except ε β} (h : SameError R x y) :
    (∃ e, x = .error e ∧ y = .error e) ∨ ∃ a b, x = .ok a ∧ y = .ok b ∧ R a b := by
  cases h with
  | error e => exact .inl ⟨e, rfl, rfl⟩
  | ok h => exact .inr ⟨_, _, rfl, rfl, h⟩

namespace FileTree

theorem get?_put (t : FileTree) (place : Place) (node : Node) (other : Place) :
    (t.put place node).get? other =
      if other = place ∧ other ≠ [] then some node else t.get? other := by
  by_cases hroot : other = []
  · subst hroot
    rw [if_neg (fun h => h.2 rfl)]
    rfl
  · by_cases hother : other = place
    · subst hother
      rw [if_pos ⟨rfl, hroot⟩, get?_put_self t hroot]
    · rw [if_neg (fun h => hother h.1), get?_put_of_ne t hother]

namespace Alike

variable {t t' : FileTree}

theorem get?_eq_none (h : t.Alike t') (place : Place) : t'.get? place = none ↔ t.get? place = none := by
  have hplace := h place
  generalize t.get? place = node at hplace
  generalize t'.get? place = node' at hplace
  cases hplace with
  | none => exact Iff.rfl
  | some => simp

theorem put (h : t.Alike t') (place : Place) (node : Node) : (t.put place node).Alike (t'.put place node) := by
  intro other
  rw [get?_put, get?_put]
  split
  · exact .some (.same node)
  · exact h other

theorem withParents (h : t.Alike t') (place : Place) : (t.withParents place).Alike (t'.withParents place) := by
  rw [FileTree.withParents, FileTree.withParents]
  induction (List.range place.length).map place.take generalizing t t' with
  | nil => exact h
  | cons dir dirs ih =>
    rw [List.foldl_cons, List.foldl_cons]
    refine ih ?_
    by_cases hdir : t.get? dir = none
    · rw [if_pos hdir, if_pos ((h.get?_eq_none dir).mpr hdir)]
      exact h.put dir .directory
    · rw [if_neg hdir, if_neg (mt (h.get?_eq_none dir).mp hdir)]
      exact h

theorem plant (h : t.Alike t') (place : Place) (node : Node) : (t.plant place node).Alike (t'.plant place node) :=
  (h.withParents place).put place node

theorem makeAll (h : t.Alike t') (files : List (Place × Option Bytes)) :
    (t.makeAll files).Alike (t'.makeAll files) := by
  rw [FileTree.makeAll, FileTree.makeAll]
  induction files generalizing t t' with
  | nil => exact h
  | cons file files ih =>
    obtain ⟨place, contents⟩ := file
    rw [List.foldl_cons, List.foldl_cons]
    refine ih ?_
    cases contents with
    | some bytes => exact h.plant place (.file bytes)
    | none =>
      dsimp only
      by_cases hplace : t.get? place = none
      · rw [if_pos hplace, if_pos ((h.get?_eq_none place).mpr hplace)]
        exact h.plant place .directory
      · rw [if_neg hplace, if_neg (mt (h.get?_eq_none place).mp hplace)]
        exact h

theorem needDirectory (h : t.Alike t') (place : Place) : t'.needDirectory place = t.needDirectory place := by
  have hplace := h place
  rw [FileTree.needDirectory, FileTree.needDirectory]
  generalize t.get? place = node at hplace
  generalize t'.get? place = node' at hplace
  cases hplace with
  | none => rfl
  | some halike =>
    cases halike with
    | same node => rfl
    | program executable hrules => rfl

theorem get?_eq_directory (h : t.Alike t') (place : Place) :
    t'.get? place = some .directory ↔ t.get? place = some .directory := by
  rw [← needDirectory_eq_ok, ← needDirectory_eq_ok, h.needDirectory]

theorem walk (h : t.Alike t') (place : Place) (pieces : List Text.Raw) :
    t'.walk place pieces = t.walk place pieces := by
  induction pieces generalizing place with
  | nil => rfl
  | cons piece pieces ih => simp only [FileTree.walk, h.needDirectory, ih]

theorem resolve (h : t.Alike t') (cwd : Place) (p : Path) : t'.resolve cwd p = t.resolve cwd p := by
  rw [FileTree.resolve, FileTree.resolve, h.walk]

theorem find (h : t.Alike t') (cwd : Place) (p : Path) :
    SameError (fun a b => b.1 = a.1 ∧ a.2.Alike b.2) (t.find cwd p) (t'.find cwd p) := by
  rw [FileTree.find, FileTree.find, h.resolve]
  cases t.resolve cwd p with
  | error e => exact .error e
  | ok place =>
    have hplace := h place
    dsimp only [bind, Except.bind]
    generalize t.get? place = node at hplace
    generalize t'.get? place = node' at hplace
    cases hplace with
    | none => exact .error _
    | some halike => exact .ok ⟨rfl, halike⟩

theorem present (h : t.Alike t') (cwd : Place) (p : Path) : t'.present cwd p = t.present cwd p := by
  have hfind := h.find cwd p
  rw [FileTree.present, FileTree.present]
  generalize t.find cwd p = found at hfind
  generalize t'.find cwd p = found' at hfind
  cases hfind with
  | error e => rfl
  | ok _ => rfl

theorem isFile (h : t.Alike t') (cwd : Place) (p : Path) : t'.isFile cwd p = t.isFile cwd p := by
  have hfind := h.find cwd p
  rw [FileTree.isFile, FileTree.isFile]
  generalize t.find cwd p = found at hfind
  generalize t'.find cwd p = found' at hfind
  cases hfind with
  | error e => rfl
  | @ok a b hfound =>
    obtain ⟨place, node⟩ := a
    obtain ⟨place', node'⟩ := b
    obtain ⟨_, halike⟩ := hfound
    cases halike with
    | same node => rfl
    | program executable hrules => rfl

theorem read (h : t.Alike t') (cwd : Place) (p : Path) : t'.read cwd p = t.read cwd p := by
  have hfind := h.find cwd p
  rw [FileTree.read, FileTree.read]
  generalize t.find cwd p = found at hfind
  generalize t'.find cwd p = found' at hfind
  cases hfind with
  | error e => rfl
  | @ok a b hfound =>
    obtain ⟨place, node⟩ := a
    obtain ⟨place', node'⟩ := b
    obtain ⟨_, halike⟩ := hfound
    cases halike with
    | same node =>
      cases node with
      | directory => rfl
      | file contents => rfl
      | program rules executable => rfl
    | program executable hrules => rfl

theorem readText (h : t.Alike t') (cwd : Place) (p : Path) : t'.readText cwd p = t.readText cwd p := by
  rw [FileTree.readText, FileTree.readText, h.read]

theorem write (h : t.Alike t') (cwd : Place) (p : Path) (contents : Bytes) :
    SameError FileTree.Alike (t.write cwd p contents) (t'.write cwd p contents) := by
  rw [FileTree.write, FileTree.write, h.resolve]
  cases t.resolve cwd p with
  | error e => exact .error e
  | ok place =>
    have hplace := h place
    dsimp only [bind, Except.bind]
    generalize t.get? place = node at hplace
    generalize t'.get? place = node' at hplace
    cases hplace with
    | none => exact .ok (h.put place _)
    | @some old new halike =>
      cases halike with
      | same =>
        cases old with
        | directory => exact .error _
        | file bytes => exact .ok (h.put place _)
        | program rules executable => exact .ok (h.put place _)
      | program executable hrules => exact .ok (h.put place _)

end Alike

end FileTree

/-! ## Hosts -/

/-- The hosts differ at most in what programs print for the operator, in what was logged and in what was shown on the
standard error. -/
structure Host.Alike (h h' : Host) : Prop where
  files : h.files.Alike h'.files
  standing : h'.standing = h.standing
  clock : h'.clock = h.clock
  readings : h'.readings = h.readings
  calls : h'.calls = h.calls
  stdout : h'.stdout = h.stdout

namespace Host.Alike

variable {h h' : Host}

theorem cwd (halike : h.Alike h') : h'.cwd = h.cwd := congrArg Standing.cwd halike.standing

theorem searchPath (halike : h.Alike h') : h'.searchPath = h.searchPath :=
  congrArg Standing.searchPath halike.standing

/-- The same place, with programs that differ at most in what they print for the operator. -/
def SameProgram (a b : Place × List Rule) : Prop :=
  b.1 = a.1 ∧ ∀ args, Rule.Alike args (Rule.chosen a.2 args) (Rule.chosen b.2 args)

theorem programAt (halike : h.Alike h') (dir : Place) (p : Path) :
    SameError SameProgram (h.programAt dir p) (h'.programAt dir p) := by
  refine (halike.files.find dir p).bind fun a b hfound => ?_
  obtain ⟨place, node⟩ := a
  obtain ⟨place', node'⟩ := b
  obtain ⟨rfl, hnode⟩ := hfound
  cases hnode with
  | same =>
    cases node with
    | directory => exact .error _
    | file contents => exact .error _
    | program rules executable =>
      cases executable with
      | false => exact .error _
      | true => exact .ok ⟨rfl, fun _ => ⟨rfl, rfl, fun _ => ⟨rfl, rfl⟩⟩⟩
  | program executable hrules =>
    cases executable with
    | false => exact .error _
    | true => exact .ok ⟨rfl, hrules⟩

theorem searchProgram (halike : h.Alike h') (dir : Place) (name : Text.Raw) (dirs : List Path) (denied : Bool)
    (last : IoError) :
    SameError SameProgram (h.searchProgram dir name dirs denied last) (h'.searchProgram dir name dirs denied last) := by
  induction dirs generalizing denied last with
  | nil => exact .error _
  | cons first dirs ih =>
    rw [searchProgram_cons, searchProgram_cons]
    rcases (halike.programAt dir (first.child name)).cases with ⟨e, hfirst, hsecond⟩ | ⟨a, b, hfirst, hsecond, hprogram⟩
    · rw [hfirst, hsecond]
      dsimp only
      split
      · exact ih _ _
      · exact .error e
    · rw [hfirst, hsecond]
      exact .ok hprogram

theorem findProgram (halike : h.Alike h') (dir : Place) (name : Text.Raw) :
    SameError SameProgram (h.findProgram dir name) (h'.findProgram dir name) := by
  rw [Host.findProgram, Host.findProgram, halike.searchPath]
  split
  · exact .error _
  · split
    · exact halike.programAt dir _
    · exact halike.searchProgram dir name _ _ _

theorem childDirectory (halike : h.Alike h') (dir? : Option Path) :
    h'.childDirectory dir? = h.childDirectory dir? := by
  cases dir? with
  | none => rw [Host.childDirectory, Host.childDirectory, halike.cwd]
  | some dir =>
    have hfind := halike.files.find h.cwd dir
    rw [Host.childDirectory, Host.childDirectory, halike.cwd]
    generalize h.files.find h.cwd dir = found at hfind
    generalize h'.files.find h.cwd dir = found' at hfind
    cases hfind with
    | error e => rfl
    | @ok a b hfound =>
      obtain ⟨place, node⟩ := a
      obtain ⟨place', node'⟩ := b
      obtain ⟨rfl, hnode⟩ := hfound
      cases hnode with
      | same => rfl
      | program executable hrules => rfl

theorem launch (halike : h.Alike h') (name : Text.Raw) (args : List String) (dir? : Option Path) :
    SameError (fun a b => b.1 = a.1 ∧ SameProgram a.2 b.2) (h.launch name args dir?) (h'.launch name args dir?) := by
  rw [Host.launch, Host.launch, halike.childDirectory]
  split
  · exact .error _
  · refine SameError.bind (R := Eq) ?_ fun dir _ hdir => ?_
    · cases h.childDirectory dir? with
      | error e => exact .error e
      | ok dir => exact .ok rfl
    · subst hdir
      refine (halike.findProgram dir name).bind fun a b hprogram => ?_
      obtain ⟨place, rules⟩ := a
      obtain ⟨place', rules'⟩ := b
      dsimp only
      split
      · exact .error _
      · exact .ok ⟨rfl, hprogram⟩

end Host.Alike

/-! ## Computations -/

namespace HostM

/-- Alike hosts are led to alike hosts, with related results. -/
def Agree {α β : Type} (R : α → β → Prop) (x : HostM α) (y : HostM β) : Prop :=
  ∀ h h' : Host, h.Alike h' → R (x.run h).1 (y.run h').1 ∧ (x.run h).2.Alike (y.run h').2

/-- The computation comes to the same on alike hosts. -/
def Steady {α : Type} (x : HostM α) : Prop := Agree Eq x x

section

variable {α β γ δ : Type} {R : α → β → Prop} {S : γ → δ → Prop} {x : HostM α} {y : HostM β} {f : α → HostM γ}
  {g : β → HostM δ}

theorem agree_pure {a : α} {b : β} (hab : R a b) : Agree R (pure a) (pure b) := fun _ _ halike => ⟨hab, halike⟩

theorem Agree.bind (hx : Agree R x y) (hf : ∀ a b, R a b → Agree S (f a) (g b)) : Agree S (x >>= f) (y >>= g) := by
  intro h h' halike
  obtain ⟨hresult, hhosts⟩ := hx h h' halike
  exact hf _ _ hresult _ _ hhosts

theorem Steady.bind {f' : α → HostM δ} (hx : Steady x) (hf : ∀ a, Agree S (f a) (f' a)) :
    Agree S (x >>= f) (x >>= f') :=
  Agree.bind hx fun a _ hab => hab ▸ hf a

end

theorem agree_log (level : LogLevel) (target message message' : String) :
    Agree Eq (log level target message) (log level target message') := by
  intro h h' halike
  obtain ⟨stderr, hlog⟩ := run_log level target message h
  obtain ⟨stderr', hlog'⟩ := run_log level target message' h'
  refine ⟨rfl, ?_⟩
  rw [hlog, hlog']
  exact ⟨halike.files, halike.standing, halike.clock, congrArg (· + 1) halike.readings, halike.calls, halike.stdout⟩

theorem agree_warnBytes (bs bs' : Bytes) : Agree Eq (warnBytes bs) (warnBytes bs') := fun _ _ halike =>
  ⟨rfl, halike.files, halike.standing, halike.clock, halike.readings, halike.calls, halike.stdout⟩

theorem steady_clock : Steady clock := by
  intro h h' halike
  refine ⟨?_, halike.files, halike.standing, halike.clock, congrArg (· + 1) halike.readings, halike.calls,
    halike.stdout⟩
  change h.clock h.readings = h'.clock h'.readings
  rw [halike.clock, halike.readings]

theorem closed_steady : Closed @Steady where
  pure := fun _ => agree_pure rfl
  bind := Steady.bind
  standing := fun _ _ halike => ⟨halike.standing.symm, halike⟩
  currentDirectory := fun h h' halike => ⟨by
    change (if h.files.get? h.cwd = _ then _ else _) = (if h'.files.get? h'.cwd = _ then _ else _)
    simp only [halike.cwd, halike.files.get?_eq_directory], halike⟩
  present := fun p h h' halike => ⟨by
    change h.files.present h.cwd p = h'.files.present h'.cwd p
    rw [halike.cwd, halike.files.present], halike⟩
  isFile := fun p h h' halike => ⟨by
    change h.files.isFile h.cwd p = h'.files.isFile h'.cwd p
    rw [halike.cwd, halike.files.isFile], halike⟩
  readText := fun p h h' halike => ⟨by
    change h.files.readText h.cwd p = h'.files.readText h'.cwd p
    rw [halike.cwd, halike.files.readText], halike⟩
  log := fun _ _ _ => agree_log _ _ _ _
  clock := steady_clock
  warnBytes := fun _ => agree_warnBytes _ _
  setConsole := fun _ _ _ halike =>
    ⟨rfl, halike.files, halike.standing, halike.clock, halike.readings, halike.calls, halike.stdout⟩

theorem agree_withStanding {α β : Type} {R : α → β → Prop} {k : Host → HostM α} {k' : Host → HostM β}
    (hview : ∀ h, k h = k h.standing.host) (hview' : ∀ h, k' h = k' h.standing.host)
    (hk : ∀ h, Agree R (k h) (k' h)) : Agree R (get >>= k) (get >>= k') := by
  rw [get_bind_eq hview, get_bind_eq hview']
  exact closed_steady.standing.bind fun s => hk s.host

theorem steady_print (s : String) : Steady (print s) := fun _ _ halike =>
  ⟨rfl, halike.files, halike.standing, halike.clock, halike.readings, halike.calls,
    congrArg (· ++ Text.Utf8.encode s) halike.stdout⟩

theorem steady_writeText (p : Path) (text : String) : Steady (writeText p text) := by
  intro h h' halike
  have hwrite := halike.files.write h.cwd p (Text.Utf8.encode text)
  rcases hwrite.cases with ⟨e, hfirst, hsecond⟩ | ⟨files, files', hfirst, hsecond, hfiles⟩
  · rw [← halike.cwd] at hsecond
    rw [run_writeText_error hfirst, run_writeText_error hsecond]
    exact ⟨rfl, halike⟩
  · rw [← halike.cwd] at hsecond
    rw [run_writeText_ok hfirst, run_writeText_ok hsecond]
    exact ⟨rfl, hfiles, halike.standing, halike.clock, halike.readings, halike.calls, halike.stdout⟩

/-- Two outputs that differ at most in what is printed for the operator. -/
def SameOutput (args : List String) (o o' : Output) : Prop :=
  o'.status = o.status ∧ (isForOperator args = false → o' = o)

theorem agree_execute (name : Text.Raw) (args : List String) (cwd : Option Path) :
    Agree (SameError (SameOutput args)) (execute name args cwd) (execute name args cwd) := by
  intro h h' halike
  rcases (halike.launch name args cwd).cases with ⟨e, hfirst, hsecond⟩ | ⟨a, b, hfirst, hsecond, hdir, hprogram⟩
  · rw [run_execute_error hfirst, run_execute_error hsecond]
    exact ⟨.error e, halike⟩
  · obtain ⟨dir, place, rules⟩ := a
    obtain ⟨dir', place', rules'⟩ := b
    obtain ⟨hplace, hrules⟩ := hprogram
    dsimp only at hdir hplace hrules
    subst hdir hplace
    have hrule := hrules args
    rw [run_execute_ok hfirst (show _ = Rule.chosen rules args from rfl),
      run_execute_ok hsecond (show _ = Rule.chosen rules' args from rfl)]
    refine ⟨.ok ⟨hrule.status, fun hread => ?_⟩, ?_, halike.standing, halike.clock, halike.readings, ?_,
      halike.stdout⟩
    · obtain ⟨hstdout, hstderr⟩ := hrule.output hread
      rw [hrule.status, hstdout, hstderr]
    · rw [hrule.files]
      exact halike.files.makeAll _
    · rw [hrule.status, halike.calls]

theorem steady_execute (name : Text.Raw) {args : List String} (cwd : Option Path) (hargs : isForOperator args = false) :
    Steady (execute name args cwd) := by
  intro h h' halike
  obtain ⟨hresult, hhosts⟩ := agree_execute name args cwd h h' halike
  refine ⟨?_, hhosts⟩
  rcases hresult.cases with ⟨e, hfirst, hsecond⟩ | ⟨o, o', hfirst, hsecond, _, hsame⟩
  · rw [hfirst, hsecond]
  · rw [hfirst, hsecond, hsame hargs]

theorem steady_stream (name : String) (args : List String) (cwd : Option Path) : Steady (stream name args cwd) := by
  refine Steady.bind (agree_log _ _ _ _) fun _ => (agree_execute name args cwd).bind fun result result' hresult => ?_
  cases hresult with
  | error e => exact agree_pure rfl
  | ok hsame =>
    refine (agree_warnBytes _ _).bind fun _ _ _ => agree_pure ?_
    rw [hsame.1]

theorem steady_isAvailable (name : String) : Steady (isAvailable name) := by
  refine (agree_execute name _ none).bind fun result result' hresult => agree_pure ?_
  cases hresult with
  | error e => rfl
  | ok hsame => rfl

end HostM

open HostM

/-! ## Looking for the tool -/

namespace ToolSearch

theorem agree_probeVersion (tool : Path) : Agree (fun _ _ => True) (probeVersion tool) (probeVersion tool) := by
  refine (agree_execute tool.spelling _ none).bind fun result result' hresult => ?_
  cases hresult with
  | error e => exact agree_pure trivial
  | ok hsame => exact agree_pure trivial

/-- A tool is found in the same place, whatever it says of its version. -/
theorem agree_detectNow (policy : Policy) (name : String) :
    Agree (fun a b => b.path = a.path) (detectNow policy name) (detectNow policy name) := by
  refine Steady.bind (agree_log _ _ _ _) fun _ => agree_withStanding (fun _ => rfl) (fun _ => rfl) fun h => ?_
  refine (closed_steady.firstWith _ _).bind fun found => ?_
  cases found with
  | none => exact Steady.bind (agree_log _ _ _ _) fun _ => steady_clock.bind fun _ => agree_pure rfl
  | some place =>
    refine (agree_probeVersion _).bind fun version version' _ => (agree_log _ _ _ _).bind fun _ _ _ => ?_
    exact steady_clock.bind fun _ => agree_pure rfl

theorem steady_findDisassembler : Steady (findDisassembler.run' {}) := by
  rw [findDisassembler_eq]
  refine (agree_detectNow _ _).bind fun status status' hpath => (agree_log _ _ _ _).bind fun _ _ _ => agree_pure ?_
  rw [hpath]

end ToolSearch

end Bringup
