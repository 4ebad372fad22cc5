import Bringup.Proofs.ConfigFile
import Bringup.Proofs.ExitStatus
import Bringup.Proofs.Inquiries
import Bringup.Proofs.Recording

/-!
# The files that the program writes itself

Programs that are started make files, and the program writes some itself.

* `Deed`: a program that is run, or a file that is written. `Host.After`: deeds account for all that has changed.
* `HostM.Does`: a computation whose deeds are all of some kind.
* `Procedure.Accounted`: what a run has written. Only the record, until the first five stages are reached.
-/

namespace Bringup

set_option autoImplicit false

open Bringup.Text Utf8

/-! ## Deeds -/

/-- What changes the files of a host. -/
inductive Deed where
  | ran (name : Text.Raw) (args : List String) (cwd : Option Path)
  | wrote (file : Path) (text : String)

/-- The deed is done. -/
def Deed.act : Deed → HostM Unit
  | ran name args cwd => do let _ ← HostM.execute name args cwd
  | wrote file text => do let _ ← HostM.writeText file text

theorem Deed.run_ran (name : Text.Raw) (args : List String) (cwd : Option Path) (h : Host) :
    ((ran name args cwd).act.run h).2 = ((HostM.execute name args cwd).run h).2 := by
  rw [act, HostM.run_bind]
  rfl

theorem Deed.run_wrote (file : Path) (text : String) (h : Host) :
    ((wrote file text).act.run h).2 = ((HostM.writeText file text).run h).2 := by
  rw [act, HostM.run_bind]
  rfl

/-- No file was changed, and no program was started. -/
structure Host.Idle (h h' : Host) : Prop where
  files : h.SameFiles h'
  calls : h'.calls = h.calls

theorem Host.Idle.refl (h : Host) : h.Idle h := ⟨.refl h, rfl⟩

theorem Host.Idle.trans {h₁ h₂ h₃ : Host} (h : h₁.Idle h₂) (h' : h₂.Idle h₃) : h₁.Idle h₃ :=
  ⟨h.files.trans h'.files, h'.calls.trans h.calls⟩

/-- These deeds, in this order, are all that has been done. -/
def Host.After : Host → List Deed → Host → Prop
  | h, [], h' => h.Idle h'
  | h, d :: deeds, h' => ∃ h₁, h.Idle h₁ ∧ (d.act.run h₁).2.After deeds h'

theorem Host.Idle.after {h h₁ h₂ : Host} {deeds : List Deed} (hidle : h.Idle h₁) (hafter : h₁.After deeds h₂) :
    h.After deeds h₂ := by
  cases deeds with
  | nil => exact hidle.trans hafter
  | cons d deeds =>
    obtain ⟨v, hv, hrest⟩ := hafter
    exact ⟨v, hidle.trans hv, hrest⟩

theorem Host.After.trans {h h₁ h₂ : Host} {deeds more : List Deed} (hfirst : h.After deeds h₁)
    (hsecond : h₁.After more h₂) : h.After (deeds ++ more) h₂ := by
  induction deeds generalizing h with
  | nil => exact Host.Idle.after hfirst hsecond
  | cons d deeds ih =>
    obtain ⟨v, hidle, hrest⟩ := hfirst
    exact ⟨v, hidle, ih hrest⟩

theorem Host.After.idle {h h₁ h₂ : Host} {deeds : List Deed} (hafter : h.After deeds h₁) (hidle : h₁.Idle h₂) :
    h.After deeds h₂ := by
  have hboth : h.After (deeds ++ []) h₂ := hafter.trans hidle
  rwa [List.append_nil] at hboth

namespace HostM

variable {K : Deed → Prop} {α β : Type}

/-- No file is changed, and no program is started. -/
def Idles {α : Type} (x : HostM α) : Prop := ∀ h : Host, h.Idle (x.run h).2

theorem closed_idles : Closed @Idles :=
  closed_of_relation (R := Host.Idle) (fun _ _ _ _ _ => ⟨⟨rfl, rfl⟩, rfl⟩) fun _ _ _ => .trans

theorem idles_print (s : String) : Idles (print s) := fun _ => ⟨⟨rfl, rfl⟩, rfl⟩

/-- All that is done is of one kind. -/
def Does (K : Deed → Prop) {α : Type} (x : HostM α) : Prop :=
  ∀ h : Host, ∃ deeds, h.After deeds (x.run h).2 ∧ ∀ d ∈ deeds, K d

theorem does_of_idle {x : HostM α} (hx : Idles x) : Does K x :=
  fun h => ⟨[], hx h, fun _ hd => absurd hd List.not_mem_nil⟩

theorem Does.bind {x : HostM α} {f : α → HostM β} (hx : Does K x) (hf : ∀ a, Does K (f a)) : Does K (x >>= f) := by
  intro h
  obtain ⟨deeds, hafter, hdeeds⟩ := hx h
  obtain ⟨more, hmore, hall⟩ := hf (x.run h).1 (x.run h).2
  refine ⟨deeds ++ more, hafter.trans hmore, fun d hd => ?_⟩
  rcases List.mem_append.mp hd with hd | hd
  · exact hdeeds d hd
  · exact hall d hd

theorem closed_does (K : Deed → Prop) : Closed (@Does K) where
  pure := fun a => does_of_idle (closed_idles.pure a)
  bind := Does.bind
  standing := does_of_idle closed_idles.standing
  currentDirectory := does_of_idle closed_idles.currentDirectory
  present := fun p => does_of_idle (closed_idles.present p)
  isFile := fun p => does_of_idle (closed_idles.isFile p)
  readText := fun p => does_of_idle (closed_idles.readText p)
  log := fun level target message => does_of_idle (closed_idles.log level target message)
  clock := does_of_idle closed_idles.clock
  warnBytes := fun bs => does_of_idle (closed_idles.warnBytes bs)
  setConsole := fun console => does_of_idle (closed_idles.setConsole console)

theorem does_print (s : String) : Does K (print s) := does_of_idle (idles_print s)

theorem does_execute {name : Text.Raw} {args : List String} {cwd : Option Path} (hran : K (.ran name args cwd)) :
    Does K (execute name args cwd) := by
  intro h
  refine ⟨[.ran name args cwd], ⟨h, .refl h, .refl _⟩, fun d hd => ?_⟩
  rw [List.mem_singleton.mp hd]
  exact hran

theorem does_writeText {file : Path} {text : String} (hwrote : K (.wrote file text)) :
    Does K (writeText file text) := by
  intro h
  refine ⟨[.wrote file text], ⟨h, .refl h, .refl _⟩, fun d hd => ?_⟩
  rw [List.mem_singleton.mp hd]
  exact hwrote

end HostM

/-! ## The deeds of a run -/

/-- All files that the deed writes are among these. -/
def Deed.Writes (files : Path → Prop) : Deed → Prop
  | ran _ _ _ => True
  | wrote file _ => files file

/-- All files that were written are among these. -/
def Written (files : Path → Prop) (deeds : List Deed) : Prop := ∀ d ∈ deeds, d.Writes files

/-- No file was written. -/
abbrev Unwritten (deeds : List Deed) : Prop := Written (fun _ => False) deeds

section

variable {files files' : Path → Prop} {deeds more : List Deed}

theorem Written.mono (hdeeds : Written files deeds) (hfiles : ∀ file, files file → files' file) :
    Written files' deeds := by
  intro d hd
  have hd := hdeeds d hd
  cases d with
  | ran name args cwd => trivial
  | wrote file text => exact hfiles file hd

theorem Unwritten.written (hdeeds : Unwritten deeds) : Written files deeds := hdeeds.mono fun _ => False.elim

theorem Written.append (hdeeds : Written files deeds) (hmore : Written files more) : Written files (deeds ++ more) := by
  intro d hd
  rcases List.mem_append.mp hd with hd | hd
  · exact hdeeds d hd
  · exact hmore d hd

theorem written_nil : Written files [] := fun _ hd => absurd hd List.not_mem_nil

end

/-- Surroundings as far as deeds are concerned: an exchange writes the files of its question. -/
def deedMoves : Surroundings (List Deed) := fun deeds e deeds' =>
  ∃ more, deeds' = deeds ++ more ∧ Written (fun file => e.question.Writes file) more ∧
    (e.question.isQuiet = true → more = [])

theorem quiet_deedMoves : deedMoves.Quiet := by
  rintro deeds q a _ hq ⟨more, rfl, _, hmore⟩
  rw [hmore hq, List.append_nil]

open HostM in
theorem after_answer (plan : Plan) (quiet : Bool) (h : Host) (q : Question) (v : Host) (deeds : List Deed)
    (hv : h.After deeds v) :
    ∃ deeds', deedMoves deeds ⟨q, some (((Collaborators.ofPlan plan quiet).answer q).run v).1⟩ deeds' ∧
      h.After deeds' (((Collaborators.ofPlan plan quiet).answer q).run v).2 := by
  have hdoes : Does (Deed.Writes fun file => q.Writes file) ((Collaborators.ofPlan plan quiet).answer q) := by
    have hclosed := closed_does (Deed.Writes fun file => q.Writes file)
    refine hclosed.answer (hclosed.isAvailable (does_execute trivial)) (fun _ _ _ => does_execute trivial)
      (fun _ _ _ _ => hclosed.stream (does_execute trivial)) plan quiet q ?_
    exact fun file text hfile => does_writeText hfile
  have hidle : q.isQuiet = true → v.Idle (((Collaborators.ofPlan plan quiet).answer q).run v).2 := by
    intro hq
    cases q with
    | now => exact ⟨⟨rfl, rfl⟩, rfl⟩
    | banner message => exact closed_idles.banner quiet message v
    | log level message => exact closed_idles.log level _ message v
    | _ => cases hq
  by_cases hq : q.isQuiet = true
  · exact ⟨deeds, ⟨[], (List.append_nil _).symm, written_nil, fun _ => rfl⟩, hv.idle (hidle hq)⟩
  · obtain ⟨more, hafter, hmore⟩ := hdoes v
    exact ⟨deeds ++ more, ⟨more, rfl, hmore, fun h => absurd h hq⟩, hv.trans hafter⟩

namespace Procedure

open Dialogue

/-- The file of the record. -/
def IsRecord (plan : Plan) (file : Path) : Prop := file = Progress.path plan.checkout

/-- The file of the record or that of the setting. -/
def IsOwn (plan : Plan) (file : Path) : Prop := file = Progress.path plan.checkout ∨ file = plan.disassemblerConfigPath

/-- The stages before the last, in order. -/
def earlyStages : List Stage := [.cloned, .pinned, .synced, .envReady, .pkgsReady]

/-- What a run has written: at first only the record. The setting was written when all stages before had been
reached. -/
def Accounted (plan : Plan) (r : Report) (deeds : List Deed) : Prop :=
  ∃ before after, deeds = before ++ after ∧ Written (IsRecord plan) before ∧ Written (IsOwn plan) after ∧
    (¬ Unwritten after → earlyStages <+: r.stages.map StageRecord.stage)

/-- A failure of a run, and what it has written; nothing if the checkout could not be had. -/
def FailsAccounted (plan : Plan) (f : Failure) (r : Report) (deeds : List Deed) : Prop :=
  Accounted plan r deeds ∧ (f.kind = .acquisition → Unwritten deeds)

/-- These stages were reached, and only the record was written. -/
structure Booked (plan : Plan) (done : List Stage) (r : Report) (deeds : List Deed) : Prop where
  written : Written (IsRecord plan) deeds
  stages : r.stages.map StageRecord.stage = done

variable {plan : Plan} {progress : Progress} {r : Report} {deeds more : List Deed} {stage : Stage} {done : List Stage}
  {ε : Type}

theorem keeps_deeds {q : Question} {Q : q.Answer → List Deed → Prop}
    (hQ : ∀ a more, Written (fun file => q.Writes file) more → Q a (deeds ++ more)) :
    (ask q ends).Keeps deedMoves (fun _ => True) Q deeds := by
  refine ⟨fun _ _ => trivial, ?_⟩
  rintro a _ ⟨more, rfl, hmore, _⟩
  exact hQ a more hmore

theorem Booked.append (hbooked : Booked plan done r deeds) (hmore : Written (IsRecord plan) more) :
    Booked plan done r (deeds ++ more) :=
  ⟨hbooked.written.append hmore, hbooked.stages⟩

theorem Booked.record (hbooked : Booked plan done r deeds) (stage : Stage) (outcome : Outcome) (note : Option String) :
    Booked plan (done ++ [stage]) (r.record stage outcome note) deeds := by
  refine ⟨hbooked.written, ?_⟩
  rw [Report.record, List.map_append, hbooked.stages]
  rfl

theorem Booked.fails (hbooked : Booked plan done r deeds) {f : Failure} (hkind : (f.kind == .acquisition) = false) :
    FailsAccounted plan f r deeds := by
  refine ⟨⟨deeds, [], (List.append_nil _).symm, hbooked.written, written_nil, fun h => absurd written_nil h⟩,
    fun hacq => ?_⟩
  rw [hacq] at hkind
  cases hkind

theorem Booked.reached (hbooked : Booked plan done r deeds) (outcome : Outcome) (note : Option String)
    {Q : Report → List Deed → Prop}
    (hQ : ∀ deeds, Booked plan (done ++ [stage]) (r.record stage outcome note) deeds →
      Q (r.record stage outcome note) deeds) :
    Reached deedMoves (fun _ => True) stage outcome note Q r deeds :=
  keeps_deeds fun _ _ hmore => hQ _ ((hbooked.append (Unwritten.written hmore)).record ..)

theorem Booked.completed (hbooked : Booked plan done r deeds) :
    Completed deedMoves (fun _ => True) (FailsAccounted plan) plan progress stage
      (fun _ r deeds => Booked plan done r deeds) r deeds := by
  refine ⟨trivial, fun t _ => keeps_deeds fun result more hmore => ?_⟩
  have hafter : Booked plan done r (deeds ++ more) := hbooked.append hmore
  cases result with
  | ok u => exact hafter
  | error e => exact hafter.fails rfl

theorem Booked.advances (hbooked : Booked plan done r deeds) {op : Dialogue (Except ε Unit)} {q : Question}
    {made : Except ε Unit → Exchange} {wrap : ε → Failure} (hop : Asks op q made) (hq : ∀ file, ¬ q.Writes file)
    (hwrap : ∀ e, ((wrap e).kind == .acquisition) = false) :
    Advances deedMoves (fun _ => True) (FailsAccounted plan) plan progress stage op wrap
      (fun _ r deeds => Booked plan (done ++ [stage]) r deeds) r deeds := by
  have hafter : ∀ result deeds', deedMoves deeds (made result) deeds' → Booked plan done r deeds' := by
    rintro result _ ⟨more, rfl, hmore, _⟩
    rw [hop.question] at hmore
    exact hbooked.append (hmore.mono fun file hfile => absurd hfile (hq file))
  refine hop.advances (fun _ _ => trivial) (fun e _ hs => (hafter _ _ hs).fails (hwrap e)) fun _ hs => ?_
  exact (hafter _ _ hs).reached _ _ fun _ hreached => hreached.completed

/-- No stage was reached yet, and nothing was written. -/
structure Blank (r : Report) (deeds : List Deed) : Prop where
  unwritten : Unwritten deeds
  stages : r.stages = []

theorem Blank.append (hblank : Blank r deeds) (hmore : Unwritten more) : Blank r (deeds ++ more) :=
  ⟨hblank.unwritten.append hmore, hblank.stages⟩

theorem Blank.booked (hblank : Blank r deeds) (plan : Plan) : Booked plan [] r deeds :=
  ⟨hblank.unwritten.written, by rw [hblank.stages]; rfl⟩

theorem Blank.fails (hblank : Blank r deeds) (f : Failure) : FailsAccounted plan f r deeds :=
  ⟨⟨deeds, [], (List.append_nil _).symm, hblank.unwritten.written, written_nil, fun h => absurd written_nil h⟩,
    fun _ => hblank.unwritten⟩

/-- The checkout is there, and that is recorded. -/
def Housed (plan : Plan) (progress : Progress) (r : Report) (deeds : List Deed) : Prop :=
  Completed deedMoves (fun _ => True) (FailsAccounted plan) plan progress .cloned
    (fun _ r deeds => Booked plan [.cloned] r deeds) r deeds

theorem Booked.takesUp (hbooked : Booked plan [.cloned] r deeds) (loaded : Option Progress) :
    TakesUp (fun _ => True) plan (Housed plan) r loaded deeds := by
  cases loaded with
  | none => exact ⟨trivial, fun t => hbooked.completed⟩
  | some p =>
    rw [TakesUp]
    split
    · exact hbooked.completed
    · exact ⟨trivial, fun t => hbooked.completed⟩

theorem Blank.resumes (hblank : Blank r deeds) :
    Resumes deedMoves (fun _ => True) (FailsAccounted plan) plan (Housed plan) r deeds := by
  rw [Resumes]
  split
  · exact fun _ => hblank.fails _
  · refine keeps_deeds fun isTree more hmore => ?_
    have hafter := hblank.append hmore
    split
    · refine ⟨trivial, (hafter.booked plan).reached _ _ fun _ hreached => keeps_deeds fun loaded more hmore => ?_⟩
      exact (hreached.append (Unwritten.written hmore)).takesUp loaded
    · exact fun _ => hafter.fails _

theorem Blank.clones (hblank : Blank r deeds) :
    Clones deedMoves (fun _ => True) (FailsAccounted plan) plan (Housed plan) r deeds := by
  refine keeps_deeds fun result more hmore => ?_
  have hafter := hblank.append hmore
  cases result with
  | ok u =>
    rw [Tried]
    exact (hafter.booked plan).reached _ _ fun _ hreached => And.intro trivial fun t => hreached.completed
  | error e => exact hafter.fails _

variable {environment packages : String}

theorem Blank.acquire (hblank : Blank r deeds) :
    Step.Holds deedMoves (fun _ => True) (FailsAccounted plan) (acquire (.asked environment packages) plan)
      (Housed plan) r deeds := by
  refine holds_acquire quiet_deedMoves (keeps_deeds fun there more hmore => ?_)
  have hafter := hblank.append hmore
  split
  · exact hafter.resumes
  · exact ⟨trivial, hafter.clones⟩

theorem Booked.pin (hbooked : Booked plan [.cloned] r deeds) :
    Step.Holds deedMoves (fun _ => True) (FailsAccounted plan) (pin (.asked environment packages) plan progress)
      (fun _ r deeds => Booked plan [.cloned, .pinned] r deeds) r deeds :=
  holds_pin quiet_deedMoves trivial (fun _ _ => hbooked.reached _ _ fun _ hreached => hreached) fun revision _ _ =>
    hbooked.advances (asks_checkout _ revision) (fun _ => id) fun _ => rfl

theorem Booked.sync (hbooked : Booked plan [.cloned, .pinned] r deeds) :
    Step.Holds deedMoves (fun _ => True) (FailsAccounted plan) (sync (.asked environment packages) plan progress)
      (fun _ r deeds => Booked plan [.cloned, .pinned, .synced] r deeds) r deeds :=
  holds_sync quiet_deedMoves trivial (fun _ _ => hbooked.reached _ _ fun _ hreached => hreached) fun _ _ =>
    hbooked.advances (asks_pull _) (fun _ => id) fun _ => rfl

theorem Booked.provision (hbooked : Booked plan done r deeds) {p : Provisioner Dialogue} {q : Question}
    {made : Except ProvisionFailure Unit → Exchange} {wrap : ProvisionFailure → Failure} (hop : Asks p.setup q made)
    (hq : ∀ file, ¬ q.Writes file) (hwrap : ∀ e, ((wrap e).kind == .acquisition) = false) (title : String) :
    Step.Holds deedMoves (fun _ => True) (FailsAccounted plan)
      (provision (.asked environment packages) plan progress p stage wrap title)
      (fun _ r deeds => Booked plan (done ++ [stage]) r deeds) r deeds :=
  holds_provision quiet_deedMoves trivial (fun _ _ => hbooked.reached _ _ fun _ hreached => hreached)
    fun _ => hbooked.advances hop hq hwrap

theorem Blank.prepare (hblank : Blank r deeds) :
    Step.Holds deedMoves (fun _ => True) (FailsAccounted plan) (prepare (.asked environment packages) plan)
      (fun _ r deeds => Booked plan earlyStages r deeds) r deeds := by
  refine holds_prepare quiet_deedMoves (keeps_deeds fun result more hmore => ?_)
    (fun _ _ _ hbooked => Booked.pin hbooked) (fun _ _ _ hbooked => Booked.sync hbooked)
    (fun _ _ _ title hbooked => Booked.provision hbooked asks_setupEnvironment (fun _ => id) (fun _ => rfl) title)
    (fun _ _ _ title hbooked => Booked.provision hbooked asks_setupPackages (fun _ => id) (fun _ => rfl) title)
  have hafter := hblank.append hmore
  cases result with
  | ok u => exact hafter.acquire
  | error e => exact hafter.fails _

/-- All stages before the last were reached. Before that, only the record was written. -/
def Closing (plan : Plan) (r : Report) (deeds : List Deed) : Prop :=
  earlyStages <+: r.stages.map StageRecord.stage ∧
    ∃ before after, deeds = before ++ after ∧ Written (IsRecord plan) before ∧ Written (IsOwn plan) after

theorem Booked.closing (hbooked : Booked plan earlyStages r deeds) : Closing plan r deeds := by
  refine ⟨?_, deeds, [], (List.append_nil _).symm, hbooked.written, written_nil⟩
  rw [hbooked.stages]

theorem Closing.append (hclosing : Closing plan r deeds) (hmore : Written (IsOwn plan) more) :
    Closing plan r (deeds ++ more) := by
  obtain ⟨hstages, before, after, rfl, hbefore, hafter⟩ := hclosing
  exact ⟨hstages, before, after ++ more, List.append_assoc .., hbefore, hafter.append hmore⟩

theorem Closing.record (hclosing : Closing plan r deeds) (stage : Stage) (outcome : Outcome) (note : Option String) :
    Closing plan (r.record stage outcome note) deeds := by
  refine ⟨?_, hclosing.2⟩
  rw [Report.record, List.map_append]
  exact hclosing.1.trans (List.prefix_append _ _)

theorem Closing.accounted (hclosing : Closing plan r deeds) : Accounted plan r deeds := by
  obtain ⟨hstages, before, after, hdeeds, hbefore, hafter⟩ := hclosing
  exact ⟨before, after, hdeeds, hbefore, hafter, fun _ => hstages⟩

theorem Closing.fails (hclosing : Closing plan r deeds) {f : Failure} (hkind : (f.kind == .acquisition) = false) :
    FailsAccounted plan f r deeds := by
  refine ⟨hclosing.accounted, fun hacq => ?_⟩
  rw [hacq] at hkind
  cases hkind

theorem Closing.reached (hclosing : Closing plan r deeds) (outcome : Outcome) (note : Option String)
    {Q : Report → List Deed → Prop}
    (hQ : ∀ deeds, Closing plan (r.record stage outcome note) deeds → Q (r.record stage outcome note) deeds) :
    Reached deedMoves (fun _ => True) stage outcome note Q r deeds :=
  keeps_deeds fun _ _ hmore => hQ _ ((hclosing.append (Unwritten.written hmore)).record ..)

theorem Closing.configure (hclosing : Closing plan r deeds) :
    Step.Holds deedMoves (fun _ => True) (FailsAccounted plan)
      (configure (.asked environment packages) plan progress) (fun _ r deeds => Closing plan r deeds) r deeds := by
  refine holds_configure quiet_deedMoves (fun _ _ => hclosing.reached _ _ fun _ hreached => hreached) fun tool _ => ?_
  refine keeps_deeds fun result more hmore => ?_
  have hafter : Closing plan r (deeds ++ more) := hclosing.append (hmore.mono fun file hfile => .inr hfile)
  cases result with
  | ok changed =>
    rw [Applied]
    refine hafter.reached _ _ fun deeds hreached => ⟨trivial, fun t _ => keeps_deeds fun result more hmore => ?_⟩
    have hstored : Closing plan _ (deeds ++ more) := hreached.append (hmore.mono fun file hfile => .inl hfile)
    cases result with
    | ok u => exact hstored
    | error e => exact hstored.fails rfl
  | error failure =>
    rw [Applied]
    split
    · exact ⟨trivial, fun _ => hafter.reached _ _ fun _ hreached => hreached⟩
    · exact hafter.fails rfl

/-- How a run ends, with its deeds. -/
def EndsAccounted (plan : Plan) : Except Failure Unit × Report → List Deed → Prop
  | (.ok _, report), deeds => Accounted plan report deeds
  | (.error f, report), deeds => FailsAccounted plan f report deeds

theorem Blank.keeps_run (hblank : Blank r deeds) :
    (run (.asked environment packages) plan r).Keeps deedMoves (fun _ => True) (EndsAccounted plan) deeds := by
  have hstages : Step.Holds deedMoves (fun _ => True) (FailsAccounted plan)
      (Procedure.stages (.asked environment packages) plan) (fun _ r deeds => Closing plan r deeds) r deeds := by
    rw [stages_eq, holds_bind]
    exact hblank.prepare.mono fun _ _ _ hbooked => hbooked.closing.configure
  refine Procedure.keeps_run (Keeps.mono hstages fun out deeds hout => ?_)
  obtain ⟨result, r⟩ := out
  cases result with
  | ok u =>
    refine keeps_deeds fun head more hmore => keeps_deeds fun _ more' hmore' => ?_
    have hafter := (hout.append (Unwritten.written hmore)).append (Unwritten.written hmore')
    exact (Closing.record hafter .done .ran none).accounted
  | error f => exact hout

end Procedure

theorem Plan.carryOut_accounted (plan : Plan) (quiet : Bool) (h : Host) :
    ∃ deeds, h.After deeds ((plan.carryOut quiet).run h).2 ∧
      Procedure.EndsAccounted plan ((plan.carryOut quiet).run h).1 deeds := by
  have hblank : Procedure.Blank (.ofPlan plan) [] := ⟨written_nil, rfl⟩
  have hkeeps : (Procedure.run (Procedure.questions (.ofPlan plan quiet)) plan (.ofPlan plan)).Keeps deedMoves
      (fun _ => True) (Procedure.EndsAccounted plan) [] := hblank.keeps_run
  obtain ⟨deeds, hends, hafter⟩ := hkeeps.hold (R := fun v deeds => h.After deeds v) (after_answer plan quiet h)
    (Host.Idle.refl h)
  rw [Procedure.hold_run] at hends hafter
  exact ⟨deeds, hafter, hends⟩

/-! ## Programs that are started for a plan -/

theorem Host.getLastD_of_findProgram {h : Host} {cwd place : Place} {rules : List Rule} {dir : Path}
    {name : Text.Raw} (hdir : dir.isAbsolute = true) (hname : .char '/' ∉ name)
    (hplain : Path.component? name = some (.normal name))
    (hfind : h.findProgram cwd (dir.child name).spelling = .ok (place, rules)) : place.getLastD [] = name := by
  rw [findProgram] at hfind
  split at hfind
  · cases hfind
  · split at hfind
    · rw [programAt] at hfind
      cases hfound : h.files.find cwd (dir.child name) with
      | error e =>
        rw [hfound] at hfind
        cases hfind
      | ok found =>
        obtain ⟨at', node⟩ := found
        rw [hfound] at hfind
        dsimp only [bind, Except.bind] at hfind
        split at hfind
        · next heq =>
          cases heq
          cases hfind
          obtain ⟨parent, rfl⟩ := FileTree.resolve_child_place hname hplain (FileTree.find_ok hfound).1
          rw [List.getLastD_concat]
        · cases hfind
    · next hslash =>
      -- The name of the program has a slash, as it is an absolute path.
      have habsolute := Path.isAbsolute_child hdir name
      rw [Path.isAbsolute, beq_iff_eq] at habsolute
      exact absurd (List.contains_iff_mem.mpr (List.mem_of_mem_head? habsolute)) hslash

/-- The disassembler is asked for its version. -/
def Deed.IsProbe (d : Deed) : Prop :=
  ∃ dir : Path, dir.isAbsolute = true ∧ d = .ran (dir.child ToolSearch.disassemblerTool).spelling ["--version"] none

theorem Deed.IsProbe.calls {d : Deed} (hd : d.IsProbe) (h : Host) :
    ∃ made, (d.act.run h).2.calls = h.calls ++ made ∧
      ∀ call ∈ made, call.program = "addr2line" ∧ call.args = ["--version"] := by
  obtain ⟨dir, hdir, rfl⟩ := hd
  rw [Deed.run_ran]
  cases hlaunch : h.launch (dir.child ToolSearch.disassemblerTool).spelling ["--version"] none with
  | error e =>
    rw [HostM.run_execute_error hlaunch]
    exact ⟨[], (List.append_nil _).symm, fun _ hcall => absurd hcall List.not_mem_nil⟩
  | ok found =>
    obtain ⟨cwd, place, rules⟩ := found
    rw [HostM.run_execute_ok hlaunch rfl]
    refine ⟨[_], rfl, fun call hcall => ?_⟩
    rw [List.mem_singleton.mp hcall]
    exact ⟨Host.getLastD_of_findProgram hdir (by decide) (by decide) (Host.findProgram_of_launch hlaunch), rfl⟩

/-- Where the disassembler was only asked for its version, no other program was started. -/
theorem Host.After.calls {h h' : Host} {deeds : List Deed} (hafter : h.After deeds h')
    (hdeeds : ∀ d ∈ deeds, d.IsProbe) :
    ∃ made, h'.calls = h.calls ++ made ∧ ∀ call ∈ made, call.program = "addr2line" ∧ call.args = ["--version"] := by
  induction deeds generalizing h with
  | nil =>
    exact ⟨[], (Host.Idle.calls hafter).trans (List.append_nil _).symm, fun _ hcall => absurd hcall List.not_mem_nil⟩
  | cons d deeds ih =>
    obtain ⟨v, hidle, hrest⟩ := hafter
    obtain ⟨made, hmade, hprogram⟩ := Deed.IsProbe.calls (hdeeds d List.mem_cons_self) v
    obtain ⟨more, hmore, hprogram'⟩ := ih hrest fun d hd => hdeeds d (List.mem_cons_of_mem _ hd)
    refine ⟨made ++ more, ?_, fun call hcall => ?_⟩
    · rw [hmore, hmade, hidle.calls, List.append_assoc]
    · exact (List.mem_append.mp hcall).elim (hprogram call) (hprogram' call)

theorem unwritten_of_probes {deeds : List Deed} (hdeeds : ∀ d ∈ deeds, d.IsProbe) : Unwritten deeds := by
  intro d hd
  obtain ⟨dir, _, rfl⟩ := hdeeds d hd
  trivial

open HostM in
theorem Options.does_plan (o : Options) : Does Deed.IsProbe o.plan := by
  have hclosed := closed_does Deed.IsProbe
  refine hclosed.plan (hclosed.findDisassembler fun dir hdir => hclosed.probeVersion (does_execute ?_)) o
  exact ⟨dir, hdir, rfl⟩

/-! ## The whole program -/

/-- What a file has, if it can be read. -/
def Host.contents (h : Host) (file : Path) : Option Bytes := (h.files.read h.cwd file).toOption

section

variable {plan : Plan} {r : Report} {deeds more : List Deed}

theorem Procedure.Accounted.after (haccounted : Accounted plan r deeds) (hmore : Unwritten more) :
    Accounted plan r (more ++ deeds) := by
  obtain ⟨before, after, rfl, hbefore, hafter, hstages⟩ := haccounted
  exact ⟨more ++ before, after, (List.append_assoc ..).symm, hmore.written.append hbefore, hafter, hstages⟩

/-- A record that is written changes no other file. -/
theorem contents_wrote_record {v : Host} (hapart : ¬ Procedure.SharesRecord plan v) (text : String) :
    ((Deed.wrote (Progress.path plan.checkout) text).act.run v).2.contents plan.disassemblerConfigPath =
      v.contents plan.disassemblerConfigPath := by
  rw [Deed.run_wrote]
  cases hwrite : v.files.write v.cwd (Progress.path plan.checkout) (encode text) with
  | error e => rw [HostM.run_writeText_error hwrite]
  | ok files =>
    rw [HostM.run_writeText_ok hwrite]
    obtain ⟨place, hplace, hnode, rfl⟩ := FileTree.write_ok hwrite
    refine FileTree.toOption_read_put hnode (fun hshared => hapart ?_) _
    exact hshared.trans hplace.symm

end

/-- What a run has written: nothing, unless there is a plan and a checkout, and then as the report says. -/
def Options.RunWrote (o : Options) (h₀ : Host) (deeds : List Deed) : Prop :=
  Unwritten deeds ∨ ∃ plan h₁ result report h₂, o.plan.run h₀ = (.ok plan, h₁) ∧
    (plan.carryOut o.quiet).run h₁ = ((result, report), h₂) ∧
    (∀ f, result = .error f → f.kind ≠ .acquisition) ∧ Procedure.Accounted plan report deeds

open HostM in
theorem Command.idle_runMain {o : Options} {h₀ h₁ h₂ : Host} {plan : Plan} {result : Except Failure Unit}
    {report : Report} (hplan : o.plan.run h₀ = (.ok plan, h₁))
    (hrun : (plan.carryOut o.quiet).run h₁ = ((result, report), h₂)) : h₂.Idle ((Command.runMain o).run h₀).2 := by
  rw [Command.run_runMain_eq hplan hrun]
  split
  · exact closed_idles.printJson idles_print report.json h₂
  · dsimp only
    split
    · exact closed_idles.printReport idles_print report h₂
    · exact .refl h₂

theorem Command.after_runMain (o : Options) (h₀ : Host) :
    ∃ deeds, h₀.After deeds ((Command.runMain o).run h₀).2 ∧ o.RunWrote h₀ deeds ∧
      ∀ failure h₁, o.plan.run h₀ = (.error failure, h₁) → ∀ d ∈ deeds, d.IsProbe := by
  obtain ⟨probes, hplanned, hprobes⟩ := o.does_plan h₀
  have hunwritten := unwritten_of_probes hprobes
  cases hplan : o.plan.run h₀ with
  | mk planned h₁ =>
    rw [hplan] at hplanned
    cases planned with
    | error failure =>
      rw [Command.run_runMain_error hplan]
      exact ⟨probes, hplanned, .inl hunwritten, fun _ _ _ => hprobes⟩
    | ok plan =>
      obtain ⟨deeds, hafter, hends⟩ := plan.carryOut_accounted o.quiet h₁
      cases hrun : (plan.carryOut o.quiet).run h₁ with
      | mk out h₂ =>
        obtain ⟨result, report⟩ := out
        rw [hrun] at hafter hends
        refine ⟨probes ++ deeds, (hplanned.trans hafter).idle (Command.idle_runMain hplan hrun), ?_, ?_⟩
        · cases result with
          | ok u => exact .inr ⟨plan, h₁, _, report, h₂, hplan, hrun, by rintro _ ⟨⟩, hends.after hunwritten⟩
          | error f =>
            obtain ⟨haccounted, hacquisition⟩ := hends
            by_cases hkind : f.kind = .acquisition
            · exact .inl (hunwritten.append (hacquisition hkind))
            · refine .inr ⟨plan, h₁, _, report, h₂, hplan, hrun, ?_, haccounted.after hunwritten⟩
              rintro _ ⟨⟩
              exact hkind
        · rintro _ _ ⟨⟩

section

open HostM

variable {env : Environment} {args : List String} {h h₀ : Host} {o : Options}

theorem Program.idles_explain (usage : Usage) : Idles (Program.explain usage) := by
  refine Closed.ite _ (fun _ => ?_) fun _ => ?_
  · exact closed_idles.bind (idles_print _) fun _ => closed_idles.pure _
  · exact closed_idles.bind (closed_idles.warnLine _) fun _ => closed_idles.pure _

theorem Program.idle_start (hparse : CommandLine.parse (fallbacks env) args = .ok o)
    (hlog : (setUpLog o env).run { h with colour := forcesColour env } = ((), h₀)) :
    h.Idle h₀ ∧ (o.perform.run h₀).2.Idle ((Program.start env args).run h).2 := by
  have hcolour : (modify fun h => { h with colour := forcesColour env } : HostM PUnit).run h =
      (⟨⟩, { h with colour := forcesColour env }) := rfl
  have hstart : h.Idle { h with colour := forcesColour env } := ⟨⟨rfl, rfl⟩, rfl⟩
  have hset := closed_idles.setUpLog o env { h with colour := forcesColour env }
  rw [hlog] at hset
  refine ⟨hstart.trans hset, ?_⟩
  rw [Program.start, hparse]
  dsimp only
  rw [HostM.run_bind, hcolour, HostM.run_bind, hlog, HostM.run_bind]
  cases hresult : o.perform.run h₀ with
  | mk result h₁ =>
    cases result with
    | ok u => exact .refl h₁
    | error failure => exact closed_idles.bind (closed_idles.complain failure) (fun _ => closed_idles.pure _) h₁

theorem Options.does_perform (hcommand : o.command ≠ .run) : Does (Deed.Writes fun _ => False) o.perform := by
  have hclosed := closed_does (Deed.Writes fun _ => False)
  have hprobe : ∀ tool, Does (Deed.Writes fun _ => False) (ToolSearch.probeVersion tool) := fun _ =>
    hclosed.probeVersion (does_execute trivial)
  rw [Options.perform]
  cases hgiven : o.command with
  | run => exact absurd hgiven hcommand
  | status => exact hclosed.statusMain does_print (fun _ _ => does_execute trivial) hprobe o
  | guide => exact hclosed.guideMain does_print (hclosed.findDisassembler fun _ _ => hprobe _) o

end

/-- What the program itself writes, whatever its command line and its host. Its deeds account for every change to the
files and every program that was started. It writes nothing unless it carries out a plan and has a checkout, and then
at first only the record of the checkout; the file of the setting not before all stages but the last were reached. A
record that is written changes that file only where the two are one. Where there is no plan, no program was started but
the disassembler, which was asked for its version. -/
theorem program_writes_only_record_and_setting (env : Environment) (args : List String) (h : Host) :
    ∃ code h' deeds, (Program.start env args).run h = (code, h') ∧ h.After deeds h' ∧
      (Unwritten deeds ∨ ∃ o h₀ plan h₁ result report h₂, CommandLine.parse (Program.fallbacks env) args = .ok o ∧
        o.command = .run ∧
        (Program.setUpLog o env).run { h with colour := Program.forcesColour env } = ((), h₀) ∧
        o.plan.run h₀ = (.ok plan, h₁) ∧ (plan.carryOut o.quiet).run h₁ = ((result, report), h₂) ∧
        (∀ f, result = .error f → f.kind ≠ .acquisition) ∧ Procedure.Accounted plan report deeds ∧
        ∀ v text, ¬ Procedure.SharesRecord plan v →
          ((Deed.wrote (Progress.path plan.checkout) text).act.run v).2.contents plan.disassemblerConfigPath =
            v.contents plan.disassemblerConfigPath) ∧
      ∀ o h₀ failure h₁, CommandLine.parse (Program.fallbacks env) args = .ok o → o.command = .run →
        (Program.setUpLog o env).run { h with colour := Program.forcesColour env } = ((), h₀) →
        o.plan.run h₀ = (.error failure, h₁) →
        ∃ made, h'.calls = h.calls ++ made ∧
          ∀ call ∈ made, call.program = "addr2line" ∧ call.args = ["--version"] := by
  cases hparse : CommandLine.parse (Program.fallbacks env) args with
  | error usage =>
    have hidle : h.Idle ((Program.start env args).run h).2 := by
      rw [Program.start, hparse]
      exact Program.idles_explain usage h
    exact ⟨_, _, [], rfl, hidle, .inl written_nil, by rintro _ _ _ _ ⟨⟩⟩
  | ok o =>
    obtain ⟨h₀, hlog⟩ : ∃ h₀,
        (Program.setUpLog o env).run { h with colour := Program.forcesColour env } = ((), h₀) := ⟨_, rfl⟩
    obtain ⟨hbefore, hafter⟩ := Program.idle_start hparse hlog
    by_cases hcommand : o.command = .run
    · obtain ⟨deeds, hdeeds, hwrote, hrejected⟩ := Command.after_runMain o h₀
      have hperform : o.perform = Command.runMain o := by rw [Options.perform, hcommand]
      rw [hperform] at hafter
      refine ⟨_, _, deeds, rfl, (hbefore.after hdeeds).idle hafter, hwrote.imp_right ?_, ?_⟩
      · rintro ⟨plan, h₁, result, report, h₂, hplan, hrun, hkind, haccounted⟩
        exact ⟨o, h₀, plan, h₁, result, report, h₂, rfl, hcommand, hlog, hplan, hrun, hkind, haccounted,
          fun _ text hapart => contents_wrote_record hapart text⟩
      · rintro _ _ failure h₁ ⟨⟩ _ hlog' hplan
        rw [hlog] at hlog'
        cases hlog'
        exact ((hbefore.after hdeeds).idle hafter).calls (hrejected failure h₁ hplan)
    · obtain ⟨deeds, hdeeds, hunwritten⟩ := Options.does_perform hcommand h₀
      refine ⟨_, _, deeds, rfl, (hbefore.after hdeeds).idle hafter, .inl hunwritten, ?_⟩
      rintro _ _ _ _ ⟨⟩ hrun
      exact absurd hrun hcommand

/-- A host with a work tree that has a setting where its record is to be, and lacks the script of the environment. -/
def bareHost : Host :=
  { Procedure.toolHost [] with
    files := ((Procedure.toolHost []).files.remove ["angr", "env.sh"]).put ["angr", ".git", "fiber-bootstrap.json"]
      (.file (encode "ADDR2LINE = ''\n")) }

/-- The file of the setting is changed by a run that fails before its last stage: the record is written over it. -/
theorem record_is_written_over_setting :
    ((Procedure.sharedPlan.carryOut true).run bareHost).1.1.isOk = false ∧
      ((Procedure.sharedPlan.carryOut true).run bareHost).1.2.stages.map StageRecord.stage =
        [.cloned, .pinned, .synced] ∧
      bareHost.contents Procedure.sharedPlan.disassemblerConfigPath = some (encode "ADDR2LINE = ''\n") ∧
      ((Procedure.sharedPlan.carryOut true).run bareHost).2.contents Procedure.sharedPlan.disassemblerConfigPath ≠
        some (encode "ADDR2LINE = ''\n") := by
  decide +kernel

end Bringup
