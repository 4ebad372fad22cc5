import Bringup.Proofs.LastStage
import Bringup.Proofs.Spelling
import Bringup.Proofs.Target

/-!
# Paths that stay in their directories

The checkout is given by a path that is read from the working directory, and the file of the setting by one that is read
from the checkout. By their text alone such paths lead up and down again, and whether they end inside the directory they
start from depends on where they go down.

* `Path.Route`: where a path leads by its text alone. `Path.Below`: strictly inside a directory.
* `Path.below_child_iff`: a path stays inside exactly if it goes down again where it went up, and further.
* `plan_stays_inside_iff`: when the checkout and the file of the setting lie inside their directories.
-/

namespace Bringup

set_option autoImplicit false

open Bringup.Text Utf8

/-- One list is the other one with something after it. -/
def Precedes {α : Type} (short long : List α) : Prop := short <+: long ∧ short.length < long.length

instance {α : Type} [DecidableEq α] (short long : List α) : Decidable (Precedes short long) :=
  inferInstanceAs (Decidable (_ ∧ _))

theorem precedes_append_iff {α : Type} (common short long : List α) :
    Precedes (common ++ short) (common ++ long) ↔ Precedes short long := by
  simp [Precedes, List.prefix_append_right_inj]

theorem dropLast_take_sub {α : Type} (l : List α) (n : Nat) :
    (l.take (l.length - n)).dropLast = l.take (l.length - (n + 1)) := by
  rw [List.dropLast_eq_take, List.take_take, List.length_take]
  congr 1
  omega

namespace Path

/-- Where a path leads by its text alone: from the root, or from so many directories above the one it is read from, down
through some names. -/
structure Route where
  absolute : Bool
  ups : Nat
  names : List Raw
deriving DecidableEq

namespace Route

/-- One directory up. Above the root there is nothing. -/
def up (r : Route) : Route :=
  if r.names = [] then
    if r.absolute then r else { r with ups := r.ups + 1 }
  else { r with names := r.names.dropLast }

/-- A piece that counts is followed. -/
def step (r : Route) (piece : Raw) : Route :=
  if piece = [.char '.', .char '.'] then r.up else { r with names := r.names ++ [piece] }

/-- So many directories up. -/
def climb : Nat → Route → Route
  | 0, r => r
  | n + 1, r => (climb n r).up

/-- A route that starts where another one ends. -/
def follow (r next : Route) : Route :=
  { climb next.ups r with names := (climb next.ups r).names ++ next.names }

/-- The route ends strictly inside the directory that another one leads to. -/
def Below (r base : Route) : Prop :=
  r.absolute = base.absolute ∧ r.ups = base.ups ∧ Precedes base.names r.names

/-- The route goes down again through the very directories that it goes up, seen from where `base` ends, and further. -/
def Returns (r base : Route) : Prop :=
  (base.absolute = true ∨ r.ups ≤ base.names.length) ∧
    Precedes (base.names.drop (base.names.length - r.ups)) r.names

instance (r base : Route) : Decidable (r.Below base) := inferInstanceAs (Decidable (_ ∧ _ ∧ _))

instance (r base : Route) : Decidable (r.Returns base) := inferInstanceAs (Decidable (_ ∧ _))

/-- The place that a route leads to from a directory. -/
def placeFrom (cwd : Place) (r : Route) : Place :=
  (if r.absolute then [] else cwd.take (cwd.length - r.ups)) ++ r.names

theorem absolute_up (r : Route) : r.up.absolute = r.absolute := by
  unfold up
  split
  · split <;> rfl
  · rfl

theorem absolute_step (r : Route) (piece : Raw) : (r.step piece).absolute = r.absolute := by
  unfold step
  split
  · exact r.absolute_up
  · rfl

theorem climb_eq (n : Nat) (r : Route) :
    climb n r =
      { absolute := r.absolute
        ups := if r.absolute then r.ups else r.ups + (n - r.names.length)
        names := r.names.take (r.names.length - n) } := by
  induction n with
  | zero => simp [climb]
  | succ n ih =>
    rw [climb, ih, up]
    dsimp only
    by_cases hempty : r.names.length ≤ n
    · have hnone : r.names.take (r.names.length - n) = [] := by simp [hempty]
      have hnone' : r.names.take (r.names.length - (n + 1)) = [] := by simp [Nat.le_succ_of_le hempty]
      rw [if_pos hnone, hnone, hnone']
      cases r.absolute with
      | true => rfl
      | false =>
        have hups : r.ups + (n - r.names.length) + 1 = r.ups + (n + 1 - r.names.length) := by omega
        simp [hups]
    · have hsome : r.names.take (r.names.length - n) ≠ [] := by
        rw [← List.length_pos_iff, List.length_take]
        omega
      have hups : n + 1 - r.names.length = n - r.names.length := by omega
      rw [if_neg hsome, dropLast_take_sub, hups]

theorem step_follow (r : Route) {next : Route} (hnext : next.absolute = false) (piece : Raw) :
    (r.follow next).step piece = r.follow (next.step piece) := by
  unfold step
  split
  · by_cases hnames : next.names = []
    · have hup : next.up = { next with ups := next.ups + 1 } := by simp [up, hnames, hnext]
      rw [hup]
      simp [follow, hnames, climb]
    · have hup : next.up = { next with names := next.names.dropLast } := by simp [up, hnames]
      rw [hup]
      simp [follow, up, hnames, List.dropLast_append_of_ne_nil hnames]
  · simp [follow]

theorem foldl_step_follow (r : Route) (pieces : List Raw) {next : Route} (hnext : next.absolute = false) :
    pieces.foldl step (r.follow next) = r.follow (pieces.foldl step next) := by
  induction pieces generalizing next with
  | nil => rfl
  | cons piece pieces ih =>
    rw [List.foldl_cons, List.foldl_cons, r.step_follow hnext, ih ((next.absolute_step piece).trans hnext)]

theorem below_follow_iff (r next : Route) : (r.follow next).Below r ↔ next.Returns r := by
  have hnames := List.take_append_drop (r.names.length - next.ups) r.names
  have hprecedes := precedes_append_iff (r.names.take (r.names.length - next.ups))
    (r.names.drop (r.names.length - next.ups)) next.names
  rw [hnames] at hprecedes
  rw [Below, Returns, follow, climb_eq]
  simp only [true_and, hprecedes]
  refine and_congr_left fun _ => ?_
  cases r.absolute with
  | true => simp
  | false =>
    have hups : r.ups + (next.ups - r.names.length) = r.ups ↔ next.ups ≤ r.names.length := by omega
    simpa using hups

end Route

/-- Where the path leads by its text alone. -/
def route (p : Path) : Route := p.steps.foldl Route.step ⟨p.isAbsolute, 0, []⟩

/-- The path ends strictly inside a directory. -/
def Below (p dir : Path) : Prop := p.route.Below dir.route

instance (p dir : Path) : Decidable (p.Below dir) := inferInstanceAs (Decidable (Route.Below _ _))

theorem isAbsolute_child_eq (dir : Path) {name : Raw} (hname : (⟨name⟩ : Path).isAbsolute = false) :
    (dir.child name).isAbsolute = dir.isAbsolute := by
  by_cases hdir : dir.isAbsolute = true
  · rw [isAbsolute_child hdir, hdir]
  · rw [Bool.eq_false_iff.mpr hdir, child, join, if_neg (by simp [hname])]
    rw [isAbsolute] at hname hdir
    cases hspelling : dir.spelling with
    | nil => simp [isAbsolute, hname]
    | cons glyph rest =>
      rw [hspelling] at hdir
      rw [isAbsolute]
      split
      · simpa using hdir
      · simpa using hdir

theorem absolute_route (p : Path) : p.route.absolute = p.isAbsolute := by
  have hfold : ∀ (pieces : List Raw) (r : Route), (pieces.foldl Route.step r).absolute = r.absolute := by
    intro pieces
    induction pieces with
    | nil => exact fun r => rfl
    | cons piece pieces ih => exact fun r => (ih _).trans (r.absolute_step piece)
  exact hfold p.steps _

/-- A path in a directory leads on from where the directory is. -/
theorem route_child (dir : Path) {name : Raw} (hname : (⟨name⟩ : Path).isAbsolute = false) :
    (dir.child name).route = dir.route.follow (⟨name⟩ : Path).route := by
  have hstart : dir.route.follow ⟨false, 0, []⟩ = dir.route := by simp [Route.follow, Route.climb]
  have hnext : (⟨name⟩ : Path).route = (⟨name⟩ : Path).steps.foldl Route.step ⟨false, 0, []⟩ := by rw [route, hname]
  calc (dir.child name).route
      = (⟨name⟩ : Path).steps.foldl Route.step dir.route := by
        rw [route, isAbsolute_child_eq dir hname, steps_child dir hname, List.foldl_append]
        rfl
    _ = (⟨name⟩ : Path).steps.foldl Route.step (dir.route.follow ⟨false, 0, []⟩) := by rw [hstart]
    _ = dir.route.follow (⟨name⟩ : Path).route := by rw [Route.foldl_step_follow _ _ rfl, hnext]

/-- A path that is read from a directory ends inside it exactly if it goes down again where it went up, and further. -/
theorem below_child_iff (dir : Path) {name : Raw} (hname : (⟨name⟩ : Path).isAbsolute = false) :
    (dir.child name).Below dir ↔ (⟨name⟩ : Path).route.Returns dir.route := by
  rw [Below, route_child dir hname, Route.below_follow_iff]

end Path

/-! ## Where the paths lead in a tree -/

namespace Path.Route

variable {cwd : Place} {r base : Route}

theorem placeFrom_up (cwd : Place) (r : Route) : r.up.placeFrom cwd = (r.placeFrom cwd).dropLast := by
  unfold up
  split
  · next hnames =>
    cases habsolute : r.absolute with
    | true => simp [placeFrom, hnames, habsolute]
    | false => simp [placeFrom, hnames, habsolute, dropLast_take_sub]
  · next hnames =>
    simp [placeFrom, List.dropLast_append_of_ne_nil hnames]

theorem precedes_placeFrom_of_below (h : r.Below base) : Precedes (base.placeFrom cwd) (r.placeFrom cwd) := by
  obtain ⟨habsolute, hups, hnames⟩ := h
  rw [placeFrom, placeFrom, habsolute, hups, precedes_append_iff]
  exact hnames

theorem placeFrom_of_absolute (habsolute : r.absolute = true) : r.placeFrom cwd = r.names := by
  simp [placeFrom, habsolute]

/-- From the root, a route that leads on ends inside a place only if it does so by its text. -/
theorem precedes_placeFrom_follow_iff (habsolute : r.absolute = true) (next : Route) :
    Precedes (r.placeFrom cwd) ((r.follow next).placeFrom cwd) ↔ (r.follow next).Below r := by
  obtain ⟨habsolute', hups⟩ : (r.follow next).absolute = true ∧ (r.follow next).ups = r.ups := by
    simp [follow, climb_eq, habsolute]
  rw [placeFrom_of_absolute habsolute, placeFrom_of_absolute habsolute']
  exact ⟨fun h => ⟨habsolute'.trans habsolute.symm, hups, h⟩, fun h => h.2.2⟩

end Path.Route

namespace FileTree

variable {t : FileTree} {cwd place : Place}

theorem walk_eq_placeFrom {pieces : List Raw} {r : Path.Route}
    (h : t.walk (r.placeFrom cwd) pieces = .ok place) :
    place = ((pieces.filter fun piece => !Path.isIdle piece).foldl Path.Route.step r).placeFrom cwd := by
  induction pieces generalizing r with
  | nil =>
    cases h
    rfl
  | cons piece pieces ih =>
    rw [walk, ← Path.isIdle] at h
    cases hneed : t.needDirectory (r.placeFrom cwd) with
    | error e =>
      rw [hneed] at h
      cases h
    | ok u =>
      rw [hneed] at h
      dsimp only [bind, Except.bind] at h
      cases hidle : Path.isIdle piece with
      | true =>
        rw [hidle, if_pos rfl] at h
        rw [List.filter_cons_of_neg (by simp [hidle])]
        exact ih h
      | false =>
        rw [List.filter_cons_of_pos (by simp [hidle]), List.foldl_cons]
        rw [hidle, if_neg Bool.false_ne_true] at h
        by_cases hup : piece = [.char '.', .char '.']
        · rw [if_pos (by simp [hup]), ← Path.Route.placeFrom_up] at h
          rw [Path.Route.step, if_pos hup]
          exact ih h
        · rw [if_neg (by simp [hup])] at h
          split at h
          · cases h
          · rw [Path.Route.step, if_neg hup]
            refine ih (h ▸ ?_)
            simp [Path.Route.placeFrom]

/-- In a tree a path leads nowhere else than its text says. -/
theorem resolve_eq_placeFrom {p : Path} (h : t.resolve cwd p = .ok place) : place = p.route.placeFrom cwd := by
  have hstart : (if p.isAbsolute then [] else cwd) = (⟨p.isAbsolute, 0, []⟩ : Path.Route).placeFrom cwd := by
    simp [Path.Route.placeFrom]
  rw [resolve] at h
  split at h
  · cases h
  · split at h
    · cases h
    · split at h
      · cases h
      · rw [hstart] at h
        exact walk_eq_placeFrom h

end FileTree

/-! ## Plans -/

namespace Disassembler

/-- Nothing changes but the file that the path leads to. -/
theorem Attempt.resolve_of_changed {file tool : Path} {key : String} {h h' : Host} {result : Except ConfigureFailure Bool}
    (hattempt : Attempt file key tool h result h') {place : Place}
    (hchanged : h'.files.get? place ≠ h.files.get? place) : h.files.resolve h.cwd file = .ok place := by
  cases hattempt with
  | unusable => exact absurd rfl hchanged
  | absent => exact absurd rfl hchanged
  | unreadable => exact absurd rfl hchanged
  | unset => exact absurd rfl hchanged
  | kept hread hassign hplace hfiles => exact absurd (by rw [hfiles.1]) hchanged
  | @written content updated found h' hread hassign hplace hfiles =>
    by_cases hfound : place = found
    · rw [hfound]
      exact hplace.resolve
    · refine absurd ?_ hchanged
      rw [hfiles.1]
      exact FileTree.get?_put_of_ne _ hfound _

end Disassembler

namespace Plan

variable {settings : Settings} {workdir : Path} {plan : Plan}

theorem paths_of_ofSettings (h : ofSettings settings workdir = .ok plan) :
    plan.checkout = workdir.child settings.source.checkoutDir ∧
      plan.disassemblerConfigPath = plan.checkout.child settings.disassembler.configFile.spelling ∧
      settings.disassembler.configFile.isAbsolute = false := by
  rw [ofSettings] at h
  split at h
  · cases h
  · split at h
    · cases h
    · split at h
      · cases h
      · next hrelative =>
        cases h
        exact ⟨rfl, rfl, Bool.eq_false_iff.mpr hrelative⟩

/-- Whether settings make a plan does not depend on the working directory. -/
theorem ofSettings_elsewhere (h : ofSettings settings workdir = .ok plan) (elsewhere : Path) :
    ∃ plan', ofSettings settings elsewhere = .ok plan' := by
  rw [ofSettings] at h ⊢
  split at h
  · cases h
  · split at h
    · cases h
    · split at h
      · cases h
      · next hrevision hcheckout hrelative =>
        exact ⟨_, by rw [if_neg hrevision, if_neg hcheckout, if_neg hrelative]⟩

end Plan

/-- The checkout lies inside the working directory, and the file of the setting inside the checkout, exactly if their
paths go down again where they went up, and further; an absolute path of the checkout has to name a place inside. Then
writing the setting changes no file outside the checkout, and where the checkout is known from the root only then. -/
theorem plan_stays_inside_iff (settings : Settings) (workdir : Path) (plan : Plan)
    (h : Plan.ofSettings settings workdir = .ok plan) :
    (plan.checkout.Below workdir ↔
      if (⟨settings.source.checkoutDir⟩ : Path).isAbsolute then (⟨settings.source.checkoutDir⟩ : Path).Below workdir
      else (⟨settings.source.checkoutDir⟩ : Path).route.Returns workdir.route) ∧
    (plan.disassemblerConfigPath.Below plan.checkout ↔
      settings.disassembler.configFile.route.Returns plan.checkout.route) ∧
    ∀ (tool : Path) (host : Host) (place file : Place), host.files.resolve host.cwd plan.checkout = .ok place →
      ((Disassembler.apply plan.disassemblerConfigPath plan.disassemblerKey tool).run host).2.files.get? file ≠
        host.files.get? file →
      (plan.disassemblerConfigPath.Below plan.checkout → Precedes place file) ∧
      (plan.checkout.isAbsolute = true → Precedes place file → plan.disassemblerConfigPath.Below plan.checkout) := by
  obtain ⟨hcheckout, hconfig, hrelative⟩ := Plan.paths_of_ofSettings h
  refine ⟨?_, ?_, fun tool host place file hplace hchanged => ?_⟩
  · rw [hcheckout]
    split
    · next habsolute => rw [workdir.child_of_isAbsolute habsolute]
    · next habsolute => exact workdir.below_child_iff (Bool.eq_false_iff.mpr habsolute)
  · rw [hconfig]
    exact plan.checkout.below_child_iff hrelative
  · have hfile := (Disassembler.attempt_apply ..).resolve_of_changed hchanged
    rw [FileTree.resolve_eq_placeFrom hplace, FileTree.resolve_eq_placeFrom hfile]
    refine ⟨Path.Route.precedes_placeFrom_of_below, fun habsolute hprecedes => ?_⟩
    rw [hconfig, plan.checkout.route_child hrelative] at hprecedes
    rw [hconfig, Path.Below, plan.checkout.route_child hrelative]
    exact (Path.Route.precedes_placeFrom_follow_iff ((Path.absolute_route _).trans habsolute) _).mp hprecedes

/-- Settings whose paths lead out of their directories and back. -/
def windingSettings : Settings :=
  { source := { revision := some "v1", checkoutDir := "./tools/../../srv/fiber" }
    disassembler := { configFile := ⟨"../fiber//conf/sym_tracer.py"⟩ } }

theorem plan_of_windingSettings_stays_inside :
    ∃ plan, Plan.ofSettings windingSettings ⟨"/srv/"⟩ = .ok plan ∧ plan.checkout.Below ⟨"/srv/"⟩ ∧
      plan.disassemblerConfigPath.Below plan.checkout :=
  ⟨_, rfl, (plan_stays_inside_iff windingSettings ⟨"/srv/"⟩ _ rfl).1.mpr (by decide +kernel),
    (plan_stays_inside_iff windingSettings ⟨"/srv/"⟩ _ rfl).2.1.mpr (by decide +kernel)⟩

/-- Settings that look for the setting beside the checkout. -/
def strayingSettings : Settings :=
  { source := { revision := some "v1" }, disassembler := { configFile := ⟨"../sym_tracer.py"⟩ } }

/-- A host with a checkout and a file of the same name as the setting's beside it. -/
def besideHost : Host :=
  { files := FileTree.makeAll {}
      [(["srv", "fiber"], none), (["srv", "sym_tracer.py"], some (encode "ADDR2LINE = ''\n")), (["bin", "a2l"], some [])]
    cwd := [] }

/-- Settings are accepted with which a file outside the checkout is written to, or the checkout is the directory above
the working directory. -/
theorem setting_outside_checkout_is_written :
    (∃ plan, Plan.ofSettings strayingSettings ⟨"/srv"⟩ = .ok plan ∧
      ¬ plan.disassemblerConfigPath.Below plan.checkout ∧
      besideHost.files.resolve besideHost.cwd plan.checkout = .ok ["srv", "fiber"] ∧
      ((Disassembler.apply plan.disassemblerConfigPath plan.disassemblerKey ⟨"/bin/a2l"⟩).run besideHost).2.files.get?
        ["srv", "sym_tracer.py"] ≠ besideHost.files.get? ["srv", "sym_tracer.py"]) ∧
    ∃ plan, Plan.ofSettings { source := { revision := some "v1", checkoutDir := ".." } } ⟨"/srv"⟩ = .ok plan ∧
      ¬ plan.checkout.Below ⟨"/srv"⟩ :=
  ⟨⟨_, rfl, by decide +kernel, by decide +kernel, by decide +kernel⟩, _, rfl, by decide +kernel⟩

/-! ## Every working directory -/

namespace Path.Route

theorem returns_start_iff (r : Route) : r.Returns ⟨false, 0, []⟩ ↔ r.ups = 0 ∧ r.names ≠ [] := by
  simp [Returns, Precedes, List.length_pos_iff]

theorem follow_of_ups_eq_zero (r : Route) {next : Route} (hups : next.ups = 0) :
    r.follow next = { r with names := r.names ++ next.names } := by
  simp [follow, hups, climb]

/-- What goes up only through the names of a route does so wherever that route starts. -/
theorem Returns.follow {r base : Route} (h : r.Returns base) (hrelative : base.absolute = false) (hups : base.ups = 0)
    (start : Route) : r.Returns (start.follow base) := by
  obtain ⟨hroot, hprecedes⟩ := h
  have hwithin : r.ups ≤ base.names.length := hroot.resolve_left (by simp [hrelative])
  have hdrop : (start.names ++ base.names).drop ((start.names ++ base.names).length - r.ups) =
      base.names.drop (base.names.length - r.ups) := by
    rw [List.length_append, Nat.add_sub_assoc hwithin, List.drop_append]
    simp
  rw [Returns, start.follow_of_ups_eq_zero hups, hdrop]
  refine ⟨.inr ?_, hprecedes⟩
  rw [List.length_append]
  omega

end Path.Route

/-- Settings keep inside from every working directory exactly if the path of the checkout never goes up, and the path of
the setting only through the names of that path. -/
theorem settings_stay_inside_iff {settings : Settings} {somewhere : Path} {plan : Plan}
    (h : Plan.ofSettings settings somewhere = .ok plan) :
    (∀ workdir plan, Plan.ofSettings settings workdir = .ok plan →
      plan.checkout.Below workdir ∧ plan.disassemblerConfigPath.Below plan.checkout) ↔
    (⟨settings.source.checkoutDir⟩ : Path).isAbsolute = false ∧
      (⟨settings.source.checkoutDir⟩ : Path).route.ups = 0 ∧ (⟨settings.source.checkoutDir⟩ : Path).route.names ≠ [] ∧
      settings.disassembler.configFile.route.Returns (⟨settings.source.checkoutDir⟩ : Path).route := by
  constructor
  · intro hinside
    -- The empty path as working directory gives nothing to come back through.
    have hstart : (⟨""⟩ : Path).route = ⟨false, 0, []⟩ := by decide
    obtain ⟨here, hhere⟩ := Plan.ofSettings_elsewhere h ⟨""⟩
    obtain ⟨hcheckout, hconfig, hrelative⟩ := Plan.paths_of_ofSettings hhere
    obtain ⟨hbelow, hsetting⟩ := hinside ⟨""⟩ here hhere
    cases habsolute : (⟨settings.source.checkoutDir⟩ : Path).isAbsolute with
    | true =>
      have hclash := hbelow.1
      rw [hcheckout, Path.child_of_isAbsolute _ habsolute, Path.absolute_route, habsolute, hstart] at hclash
      cases hclash
    | false =>
      rw [hcheckout, Path.below_child_iff _ habsolute, hstart, Path.Route.returns_start_iff] at hbelow
      refine ⟨rfl, hbelow.1, hbelow.2, ?_⟩
      rw [hconfig, Path.below_child_iff _ hrelative, hcheckout, Path.route_child _ habsolute, hstart,
        Path.Route.follow_of_ups_eq_zero _ hbelow.1] at hsetting
      have hroute : (⟨settings.source.checkoutDir⟩ : Path).route =
          ⟨false, 0, [] ++ (⟨settings.source.checkoutDir⟩ : Path).route.names⟩ := by
        rw [List.nil_append, ← habsolute, ← Path.absolute_route, ← hbelow.1]
      rw [hroute]
      exact hsetting
  · rintro ⟨habsolute, hups, hnames, hreturns⟩ workdir plan hplan
    obtain ⟨hcheckout, hconfig, hrelative⟩ := Plan.paths_of_ofSettings hplan
    refine ⟨?_, ?_⟩
    · rw [hcheckout, Path.below_child_iff _ habsolute]
      simpa [Path.Route.Returns, Precedes, hups, List.length_pos_iff] using hnames
    · rw [hconfig, Path.below_child_iff _ hrelative, hcheckout, Path.route_child _ habsolute]
      exact hreturns.follow ((Path.absolute_route _).trans habsolute) hups workdir.route

end Bringup
