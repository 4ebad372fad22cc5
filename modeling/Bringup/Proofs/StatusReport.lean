import Bringup.Command.Status
import Bringup.Procedure.Trace
import Bringup.Proofs.StoredRecord
import Bringup.Proofs.Target

/-!
# What the status asks for

* `Traces`, `Mirrors`: a computation that notes its requests does the same as one that does not.
* `Status.ofSettings_traced`: which revision the status looks up.
* `status_looks_up_given_pin`: it is the one of the settings, where a run leaves out the blanks around it.
-/

namespace Bringup

set_option autoImplicit false

variable {α β : Type}

/-- On this host, a computation that keeps a list of requests does the same as one that does not, and adds
these requests to the list. -/
def Traces (x : StateT (List Request) HostM α) (y : HostM α) (h : Host) (requests : List Request) : Prop :=
  ∀ l, (x.run l).run h = (((y.run h).1, l ++ requests), (y.run h).2)

theorem traces_pure (a : α) (h : Host) : Traces (pure a) (pure a) h [] := by
  intro l
  rw [List.append_nil]
  rfl

theorem traces_lift (y : HostM α) (h : Host) : Traces (monadLift y) y h [] := by
  intro l
  rw [List.append_nil]
  rfl

theorem traces_noted (request : Request) (y : HostM α) (h : Host) : Traces (noted request y) y h [request] :=
  fun _ => rfl

section

variable {x : StateT (List Request) HostM α} {y : HostM α} {h h' : Host} {a : α} {rs rs' : List Request}
  {f : α → StateT (List Request) HostM β} {g : α → HostM β}

theorem Traces.bind (hx : Traces x y h rs) (hf : Traces (f (y.run h).1) (g (y.run h).1) (y.run h).2 rs') :
    Traces (x >>= f) (y >>= g) h (rs ++ rs') := by
  intro l
  have hbind : ((x >>= f).run l).run h =
      ((f ((x.run l).run h).1.1).run ((x.run l).run h).1.2).run ((x.run l).run h).2 := rfl
  rw [hbind, hx l, HostM.run_bind, ← List.append_assoc]
  exact hf (l ++ rs)

theorem Traces.bind_of_run (hx : Traces x y h rs) (hy : y.run h = (a, h')) (hf : Traces (f a) (g a) h' rs') :
    Traces (x >>= f) (y >>= g) h (rs ++ rs') := by
  refine hx.bind ?_
  rw [hy]
  exact hf

end

/-- The requests are all of a kind. -/
def Mirrors (P : Request → Prop) (x : StateT (List Request) HostM α) (y : HostM α) : Prop :=
  ∀ h, ∃ rs, (∀ r ∈ rs, P r) ∧ Traces x y h rs

section

variable {P : Request → Prop}

theorem mirrors_pure (a : α) : Mirrors P (pure a) (pure a) := fun h => ⟨[], nofun, traces_pure a h⟩

theorem mirrors_lift (y : HostM α) : Mirrors P (monadLift y) y := fun h => ⟨[], nofun, traces_lift y h⟩

theorem mirrors_noted {request : Request} (hP : P request) (y : HostM α) : Mirrors P (noted request y) y := by
  intro h
  refine ⟨[request], fun r hr => ?_, traces_noted request y h⟩
  rw [List.mem_singleton.mp hr]
  exact hP

theorem Mirrors.bind {x : StateT (List Request) HostM α} {y : HostM α}
    {f : α → StateT (List Request) HostM β} {g : α → HostM β} (hx : Mirrors P x y)
    (hf : ∀ a, Mirrors P (f a) (g a)) : Mirrors P (x >>= f) (y >>= g) := by
  intro h
  obtain ⟨rs, hrs, hx⟩ := hx h
  obtain ⟨rs', hrs', hf⟩ := hf (y.run h).1 (y.run h).2
  refine ⟨rs ++ rs', fun r hr => ?_, hx.bind hf⟩
  exact (List.mem_append.mp hr).elim (hrs r) (hrs' r)

theorem Mirrors.ite {p : Prop} [Decidable p] {x x' : StateT (List Request) HostM α} {y y' : HostM α}
    (h : Mirrors P x y) (h' : Mirrors P x' y') :
    Mirrors P (if p then x else x') (if p then y else y') := by
  split
  · exact h
  · exact h'

end

/-- The revision that source control is asked to look up, and where. -/
def Request.lookup? : Request → Option (Path × String)
  | resolveRevision repo revision => some (repo, revision)
  | _ => none

namespace Status

variable (source : SourceControl HostM) (settings : Settings) (workdir checkout : Path) (h : Host)

theorem survey_traced : Mirrors (fun r => r.lookup? = none) (survey source.traced checkout)
    (survey source checkout) := by
  have hwork : Mirrors (fun r => r.lookup? = none) (source.traced.isWorkTree checkout)
      (source.isWorkTree checkout) := mirrors_noted (by rfl) _
  have hhead : Mirrors (fun r => r.lookup? = none) (source.traced.headRevision checkout)
      (source.headRevision checkout) := mirrors_noted (by rfl) _
  refine .bind (mirrors_lift _) fun present => .ite (.bind hwork ?_) (.bind (mirrors_pure false) ?_)
  · exact fun _ => .ite (.bind hhead fun _ => mirrors_pure _) (.bind (mirrors_pure _) fun _ => mirrors_pure _)
  · exact fun _ => .ite (.bind hhead fun _ => mirrors_pure _) (.bind (mirrors_pure _) fun _ => mirrors_pure _)

/-- What is looked up to compare the pin with the commit that is checked out. -/
def lookups (policy : SyncPolicy) (head pin : Option String) : List Request :=
  if policy = .latest then []
  else match head, pin with
    | some _, some pin => [.resolveRevision checkout pin]
    | _, _ => []

theorem lookup_lookups {policy : SyncPolicy} (hpolicy : policy ≠ .latest) (head : Option String)
    (pin : String) : (lookups checkout policy head (some pin)).filterMap Request.lookup? =
      if head.isSome then [(checkout, pin)] else [] := by
  unfold lookups
  rw [if_neg hpolicy]
  cases head with
  | none => rfl
  | some head => rfl

theorem pinMatchesHead_traced (policy : SyncPolicy) (head pin : Option String) :
    Traces (pinMatchesHead source.traced checkout policy head pin)
      (pinMatchesHead source checkout policy head pin) h (lookups checkout policy head pin) := by
  unfold pinMatchesHead lookups
  by_cases hpolicy : policy = .latest
  · simp only [hpolicy, if_true]
    exact traces_pure none h
  · simp only [hpolicy, if_false]
    cases head with
    | none => exact traces_pure none h
    | some head =>
      cases pin with
      | none => exact traces_pure none h
      | some pin => exact (traces_noted (.resolveRevision checkout pin) _ h).bind (traces_pure _ _)

theorem ofSettings_fields :
    ((ofSettings source settings workdir).run h).1.checkout = workdir.child settings.source.checkoutDir ∧
      ((ofSettings source settings workdir).run h).1.pinnedRevision = settings.source.revision ∧
      ((ofSettings source settings workdir).run h).1.head =
        ((survey source (workdir.child settings.source.checkoutDir)).run h).1.2.2 := by
  simp only [ofSettings, HostM.run_bind]
  exact ⟨rfl, rfl, rfl⟩

theorem ofSettings_traced :
    ∃ rs, Traces (ofSettings source.traced settings workdir) (ofSettings source settings workdir) h rs ∧
      rs.filterMap Request.lookup? = (lookups (workdir.child settings.source.checkoutDir)
        settings.source.syncPolicy ((ofSettings source settings workdir).run h).1.head
        settings.source.revision).filterMap Request.lookup? := by
  obtain ⟨rs, hrs, hsurvey⟩ := survey_traced source (workdir.child settings.source.checkoutDir) h
  refine ⟨_, hsurvey.bind (.bind (pinMatchesHead_traced _ _ _ _ _ _) (.bind (traces_lift _ _)
    (.bind (traces_lift _ _) (traces_pure _ _)))), ?_⟩
  rw [(ofSettings_fields source settings workdir h).2.2, List.filterMap_append,
    List.filterMap_eq_nil_iff.mpr hrs]
  simp

end Status

theorem Settings.withDetected_source (s : Settings) (h : Host) : (s.withDetected.run h).1.source = s.source := by
  unfold Settings.withDetected
  split
  · rw [HostM.run_bind]
    split
    · rfl
    · rw [HostM.run_bind]
      rfl
  · rfl

theorem Options.run_workdirOn (o : Options) (h : Host) : ∃ found, o.workdirOn.run h = (found, h) := by
  unfold Options.workdirOn
  cases o.workdir with
  | some dir => exact ⟨_, rfl⟩
  | none => exact ⟨_, rfl⟩

/-- The plan of a run is made of settings with the same source as those of the status. -/
theorem Options.plan_ok {o : Options} {h : Host} {plan : Plan} (hplan : (o.plan.run h).1 = .ok plan) :
    ∃ workdir settings detected h', o.workdirOn.run h = (.ok workdir, h) ∧
      (o.settings workdir).run h = (.ok settings, h') ∧ detected.source = settings.source ∧
      Plan.ofSettings detected workdir = .ok plan := by
  obtain ⟨found, hfound⟩ := o.run_workdirOn h
  rw [Options.plan, HostM.run_bind, hfound] at hplan
  cases found with
  | error e => cases hplan
  | ok workdir =>
    rw [HostM.run_bind, Options.resolve, HostM.run_bind] at hplan
    cases hsettings : (o.settings workdir).run h with
    | mk result h' =>
      rw [hsettings] at hplan
      cases result with
      | error e => cases hplan
      | ok settings =>
        refine ⟨workdir, settings, (settings.withDetected.run h').1, h', hfound, hsettings,
          Settings.withDetected_source settings h', ?_⟩
        change (Plan.ofSettings (settings.withDetected.run h').1 workdir).mapError _ = _ at hplan
        cases hmade : Plan.ofSettings (settings.withDetected.run h').1 workdir with
        | ok made =>
          rw [hmade] at hplan
          cases hplan
          rfl
        | error e =>
          rw [hmade] at hplan
          cases hplan

section

variable {o : Options} {h h₁ : Host} {workdir : Path} {settings : Settings} {make : Settings → Path → HostM α}
  (hworkdir : o.workdirOn.run h = (.ok workdir, h)) (hsettings : (o.settings workdir).run h = (.ok settings, h₁))

include hworkdir hsettings

theorem Options.withSettings_run :
    (o.withSettings make).run h = (.ok ((make settings workdir).run h₁).1, ((make settings workdir).run h₁).2) := by
  unfold Options.withSettings
  simp only [HostM.run_bind, monadLift_self, hworkdir, hsettings]
  rfl

theorem Options.withSettings_traced {make' : Settings → Path → StateT (List Request) HostM α}
    {rs : List Request}
    (htraced : Traces (make' settings workdir) (make settings workdir) h₁ rs) :
    Traces (o.withSettings make') (o.withSettings make) h rs := by
  have hrs : rs = [] ++ ([] ++ (rs ++ [])) := by simp
  rw [hrs]
  refine (traces_lift o.workdirOn h).bind_of_run hworkdir ?_
  refine (traces_lift (o.settings workdir) h).bind_of_run hsettings ?_
  exact htraced.bind (traces_pure _ _)

end

/-- The status and a run have the same settings, but only the run leaves out the blanks around a revision.
So the status names the checkout of the run, and it looks up the revision as it was given. That is the one
that the run checks out exactly if there are no blanks around it. -/
theorem status_looks_up_given_pin (o : Options) (h : Host) {plan : Plan}
    (hplan : (o.plan.run h).1 = .ok plan) (hpolicy : plan.syncPolicy ≠ .latest) :
    ∃ given status requests h', plan.revision = some (Text.trim given) ∧
      (o.status (Git.sourceControl "git")).run h = (.ok status, h') ∧
      ((o.status (Git.sourceControl "git").traced).run []).run h = ((.ok status, requests), h') ∧
      status.checkout = plan.checkout ∧ status.pinnedRevision = some given ∧
      requests.filterMap Request.lookup? = (if status.head.isSome then [(plan.checkout, given)] else []) ∧
      (status.head.isSome →
        (requests.filterMap Request.lookup? = plan.revision.toList.map (plan.checkout, ·) ↔
          Text.trim given = given)) := by
  obtain ⟨workdir, settings, detected, h₁, hworkdir, hsettings, hsource, hmade⟩ := Options.plan_ok hplan
  obtain ⟨hsome, hsync, hrevision, hcheckout⟩ := Plan.ofSettings_ok hmade
  obtain ⟨rev, hrev⟩ := Option.isSome_iff_exists.mp (hsome hpolicy)
  obtain ⟨given, hgiven, rfl⟩ := Plan.revision_eq_trim (hrevision.symm.trans hrev)
  rw [hsource] at hsync hcheckout hgiven
  obtain ⟨rs, htraced, hlookups⟩ :=
    Status.ofSettings_traced (Git.sourceControl "git") settings workdir h₁
  obtain ⟨hplace, hpin, _⟩ :=
    Status.ofSettings_fields (Git.sourceControl "git") settings workdir h₁
  have hstatus : (o.status (Git.sourceControl "git")).run h = _ := Options.withSettings_run hworkdir hsettings
  have hsame : Traces (o.status (Git.sourceControl "git").traced) (o.status (Git.sourceControl "git")) h rs :=
    Options.withSettings_traced hworkdir hsettings htraced
  have hrequests := hsame []
  rw [hstatus] at hrequests
  generalize ((Status.ofSettings (Git.sourceControl "git") settings workdir).run h₁) = found
    at hlookups hplace hpin hstatus hrequests
  obtain ⟨status, h'⟩ := found
  have hasked : rs.filterMap Request.lookup? =
      if status.head.isSome then [(plan.checkout, given)] else [] := by
    rw [hlookups, hgiven, ← hcheckout]
    exact Status.lookup_lookups _ (hsync ▸ hpolicy) status.head given
  refine ⟨given, status, rs, h', hrev, hstatus, hrequests, hplace.trans hcheckout.symm, hpin.trans hgiven,
    hasked, fun hhead => ?_⟩
  rw [hasked, if_pos hhead, hrev]
  simp [eq_comm]

/-- A host with a checkout at a commit, and a program for source control that tells it. -/
def clonedHost : Host where
  files := ⟨[(["fiber", ".git"], .directory), (["fiber"], .directory), (["bin"], .directory),
    (["bin", "git"], .program [
      { args := some [some "rev-parse", some "--is-inside-work-tree"], stdout := Text.Utf8.encode "true\n" },
      { args := some [some "rev-parse", some "HEAD"], stdout := Text.Utf8.encode "0a1b\n" }] true)]⟩

/-- Options with a revision that has blanks around it. -/
def blankOptions : Options where
  revision := some " v1 "

theorem status_looks_up_given_pin_on_clonedHost :
    ∃ plan, (blankOptions.plan.run clonedHost).1 = .ok plan ∧ plan.syncPolicy ≠ .latest ∧
      ∃ given status requests h', plan.revision = some (Text.trim given) ∧
        (blankOptions.status (Git.sourceControl "git")).run clonedHost = (.ok status, h') ∧
        ((blankOptions.status (Git.sourceControl "git").traced).run []).run clonedHost
          = ((.ok status, requests), h') ∧
        status.checkout = plan.checkout ∧ status.head = some "0a1b" ∧
        (requests.filterMap Request.lookup? = plan.revision.toList.map (plan.checkout, ·) ↔
          Text.trim given = given) := by
  obtain ⟨plan, hplan, hpinned⟩ : ∃ plan, (blankOptions.plan.run clonedHost).1 = .ok plan ∧
      plan.syncPolicy = .pinned := ⟨_, rfl, rfl⟩
  have hpolicy : plan.syncPolicy ≠ .latest := by
    rw [hpinned]
    nofun
  obtain ⟨given, status, requests, h', hrevision, hstatus, hrequests, hcheckout, _, _, hagrees⟩ :=
    status_looks_up_given_pin blankOptions clonedHost hplan hpolicy
  have hhead : ((blankOptions.status (Git.sourceControl "git")).run clonedHost).1.toOption.bind Status.head
      = some "0a1b" := by decide +kernel
  rw [hstatus] at hhead
  change status.head = some "0a1b" at hhead
  refine ⟨plan, hplan, hpolicy, given, status, requests, h', hrevision, hstatus, hrequests, hcheckout, hhead, ?_⟩
  exact hagrees (by rw [hhead]; rfl)

/-- The status looks up a revision with the blanks around it, and the run checks it out without them. -/
theorem status_looks_up_blanks :
    ∃ plan, (blankOptions.plan.run clonedHost).1 = .ok plan ∧ plan.syncPolicy = .pinned ∧
      ∃ status requests h', ((blankOptions.status (Git.sourceControl "git").traced).run []).run clonedHost
          = ((.ok status, requests), h') ∧
        status.head = some "0a1b" ∧ plan.revision = some "v1" ∧
        requests.filterMap Request.lookup? = [(plan.checkout, " v1 ")] ∧
        requests.filterMap Request.lookup? ≠ plan.revision.toList.map (plan.checkout, ·) := by
  refine ⟨_, rfl, rfl, _, _, _, rfl, ?_, ?_, ?_, ?_⟩
  · decide +kernel
  · decide +kernel
  · decide +kernel
  · decide +kernel

end Bringup
