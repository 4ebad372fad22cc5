import Bringup.Command.Status
import Bringup.Proofs.Calls

/-!
# Inquiries

A program that is asked for its version, or `git rev-parse`, only tells something.

* `Host.Discreet`: no program of the host makes a file when it is asked such a thing.
* `HostM.Discreetly`: a computation that changes no file of such a host. A plan is made so, and a checkout
  is looked at (`HostM.closed_discreetly`).
-/

namespace Bringup

set_option autoImplicit false

/-- The arguments ask a program to tell something. -/
def isInquiry (args : List String) : Bool := args.head? == some "--version" || args.head? == some "rev-parse"

/-- What stands there makes no file when it is asked something. -/
def Node.Discreet : Node → Prop
  | program rules _ => ∀ args, isInquiry args = true → ((rules.find? fun r => r.applies args).getD {}).files = []
  | _ => True

/-- No program of the host makes a file when it is asked something. -/
def Host.Discreet (h : Host) : Prop := ∀ place node, h.files.get? place = some node → node.Discreet

theorem Node.discreet_of_rules {rules : List Rule} (executable : Bool) (hrules : ∀ r ∈ rules, r.files = []) :
    (Node.program rules executable).Discreet := by
  intro args _
  cases hfind : rules.find? fun r => r.applies args with
  | none => rfl
  | some rule => exact hrules rule (List.mem_of_find?_eq_some hfind)

theorem Host.discreet_of_entries {h : Host} (hentries : ∀ e ∈ h.files.entries, e.2.Discreet) : h.Discreet := by
  intro place node hnode
  rw [FileTree.get?] at hnode
  split at hnode
  · cases hnode
    trivial
  · obtain ⟨before, after, hsplit, _⟩ := List.lookup_eq_some_iff.mp hnode
    refine hentries (place, node) ?_
    rw [hsplit]
    exact List.mem_append_right _ List.mem_cons_self

theorem Host.Discreet.sameFiles {h h' : Host} (hdiscreet : h.Discreet) (hfiles : h.SameFiles h') : h'.Discreet := by
  rw [Host.Discreet, hfiles.1]
  exact hdiscreet

/-! ## The program that is started -/

namespace Host

variable {h : Host} {cwd : Place} {place : Place} {rules : List Rule} {name : Text.Raw}

/-- A program stands at the place. -/
def HasProgram (h : Host) (place : Place) (rules : List Rule) : Prop :=
  h.files.get? place = some (.program rules true)

theorem hasProgram_of_programAt {p : Path} (hprogram : h.programAt cwd p = .ok (place, rules)) :
    h.HasProgram place rules := by
  rw [programAt] at hprogram
  cases hfind : h.files.find cwd p with
  | error e =>
    rw [hfind] at hprogram
    cases hprogram
  | ok found =>
    rw [hfind] at hprogram
    dsimp only [bind, Except.bind] at hprogram
    split at hprogram
    · cases hprogram
      exact (FileTree.find_ok hfind).2
    · cases hprogram

theorem hasProgram_of_searchProgram {dirs : List Path} {denied : Bool} {last : IoError}
    (hsearch : h.searchProgram cwd name dirs denied last = .ok (place, rules)) : h.HasProgram place rules := by
  fun_induction searchProgram h cwd name dirs denied last with
  | case1 => cases hsearch
  | case2 dir dirs denied _ found hfound =>
    cases hsearch
    exact hasProgram_of_programAt hfound
  | case3 dir dirs denied _ e herror hpass ih => exact ih hsearch
  | case4 => cases hsearch

theorem hasProgram_of_findProgram (hfind : h.findProgram cwd name = .ok (place, rules)) :
    h.HasProgram place rules := by
  rw [findProgram] at hfind
  split at hfind
  · cases hfind
  · split at hfind
    · exact hasProgram_of_programAt hfind
    · exact hasProgram_of_searchProgram hfind

theorem findProgram_of_launch {args : List String} {dir? : Option Path} {dir : Place}
    (hlaunch : h.launch name args dir? = .ok (dir, place, rules)) : h.findProgram dir name = .ok (place, rules) := by
  simp only [launch, bind, Except.bind] at hlaunch
  split at hlaunch
  · cases hlaunch
  · split at hlaunch
    · cases hlaunch
    · split at hlaunch
      · cases hlaunch
      · next found hfind =>
        split at hlaunch
        · cases hlaunch
        · cases hlaunch
          exact hfind

theorem hasProgram_of_launch {args : List String} {dir? : Option Path} {dir : Place}
    (hlaunch : h.launch name args dir? = .ok (dir, place, rules)) : h.HasProgram place rules :=
  hasProgram_of_findProgram (findProgram_of_launch hlaunch)

end Host

/-! ## Computations that change no file -/

namespace HostM

variable {α : Type}

/-- No file of a discreet host is changed. -/
def Discreetly (x : HostM α) : Prop := ∀ h : Host, h.Discreet → h.SameFiles (x.run h).2

theorem discreetly_execute (name : Text.Raw) {args : List String} (cwd : Option Path) (hargs : isInquiry args = true) :
    Discreetly (execute name args cwd) := by
  intro h hdiscreet
  cases hlaunch : h.launch name args cwd with
  | error e =>
    rw [run_execute_error hlaunch]
    exact .refl h
  | ok found =>
    obtain ⟨dir, place, rules⟩ := found
    have hfiles : ((rules.find? fun r => r.applies args).getD {}).files = [] :=
      hdiscreet place _ (Host.hasProgram_of_launch hlaunch) args hargs
    rw [run_execute_ok hlaunch rfl, hfiles]
    exact ⟨rfl, rfl⟩

theorem closed_discreetly : Closed @Discreetly :=
  closed_of_relation (R := fun h h' => h.Discreet → h.SameFiles h') (fun _ _ _ _ _ _ => ⟨rfl, rfl⟩)
    fun _ _ _ hfirst hsecond hdiscreet =>
      (hfirst hdiscreet).trans (hsecond (hdiscreet.sameFiles (hfirst hdiscreet)))

end HostM

open HostM

theorem ToolSearch.discreetly_findDisassembler : Discreetly (findDisassembler.run' {}) := by
  refine closed_discreetly.findDisassembler fun dir _ => ?_
  exact closed_discreetly.probeVersion (discreetly_execute _ none rfl)

theorem Options.discreetly_settings (o : Options) (workdir : Path) : Discreetly (o.settings workdir) :=
  closed_discreetly.settings o workdir

theorem Options.discreetly_plan (o : Options) : Discreetly o.plan :=
  closed_discreetly.plan ToolSearch.discreetly_findDisassembler o

end Bringup
