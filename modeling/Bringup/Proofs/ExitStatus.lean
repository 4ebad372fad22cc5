import Bringup.Program
import Bringup.Proofs.Calls
import Bringup.Proofs.ReportText
import Bringup.Proofs.StageOrder

/-!
# The exit status of a run

A failed run has the code of the command that failed, on its way through the failure of the step. `Coded` is the
invariant: a failure has the code that the last program exited with, if that is a command of its step. A report that
is to be printed as JSON and has a path that is not Unicode comes in between: the exit status is then one.
-/

namespace Bringup

set_option autoImplicit false

open Procedure

/-! ## Codes along a run -/

namespace Git

/-- The command that clones. -/
def isClone (url : String) (dest : Path) (args : List String) : Bool := args == ["clone", url, dest.text]

/-- A command of checking out: the look-up of the commit or the checkout itself. -/
def isCheckout (revision : String) (args : List String) : Bool :=
  args == resolveArgs revision || args == checkoutArgs revision

/-- The command that pulls. -/
def isPull (args : List String) : Bool := pullArgs.isPrefixOf args

end Git

/-- The commands of the step that a failure of some kind comes from. -/
def Plan.commands (plan : Plan) : FailureKind → List String → Bool
  | .acquisition, args => Git.isClone plan.repository plan.checkout args
  | .revision, args => plan.revision.any fun revision => Git.isCheckout revision args
  | .sync, args => Git.isPull args
  | .environmentSetup, args => args == [plan.environmentScript]
  | .packageInstall, args => args == [plan.packagesScript]
  | _, _ => false

/-- The programs that are started in an exchange. -/
def Exchange.Makes (plan : Plan) : Exchange → List Call → Prop
  | ⟨.ensureAvailable, some result⟩, made => Git.TriedOut result made
  | ⟨.clone url dest, some result⟩, made => Attempted (Git.isClone url dest) CommandFailure.exitCode result made
  | ⟨.checkout _ revision, some result⟩, made =>
    Attempted (Git.isCheckout revision) CommandFailure.exitCode result made
  | ⟨.pull _, some result⟩, made => Attempted Git.isPull CommandFailure.exitCode result made
  | ⟨.isWorkTree _, some isTree⟩, made => Git.TreeAsked isTree made
  | ⟨.setupEnvironment, some result⟩, made =>
    Attempted (plan.commands .environmentSetup) ProvisionFailure.code result made
  | ⟨.setupPackages, some result⟩, made =>
    Attempted (plan.commands .packageInstall) ProvisionFailure.code result made
  | ⟨.headRevision _, _⟩, _ => True
  | ⟨.resolveRevision _ _, _⟩, _ => True
  | _, made => made = []

/-- Surroundings as far as the programs that were started are concerned. -/
def processMoves (plan : Plan) : Surroundings (List Call) := fun calls e calls' =>
  ∃ made, calls' = calls ++ made ∧ e.Makes plan made

theorem quiet_processMoves (plan : Plan) : (processMoves plan).Quiet := by
  rintro calls q a _ hq ⟨made, rfl, hmade⟩
  have hnone : made = [] := by
    cases q with
    | now => exact hmade
    | banner message => exact hmade
    | log level message => exact hmade
    | _ => cases hq
  rw [hnone, List.append_nil]

/-- The last program is no failed command of any step. -/
def Clean (calls : List Call) : Prop := ∀ own, lastCode own calls = none

theorem EndsWell.clean {made : List Call} (hmade : EndsWell made) (calls : List Call) :
    Clean (calls ++ made) := by
  obtain ⟨before, call, rfl, hsuccess⟩ := hmade
  intro own
  rw [← List.append_assoc]
  exact lastCode_concat_eq_none own _ (.inl hsuccess)

/-- The failure has the code of the step's own command, if that is the last program and ended with one. -/
def Coded (plan : Plan) (f : Failure) (_ : Report) (calls : List Call) : Prop :=
  f.commandCode = (lastCode (plan.commands f.kind) calls).map Int.ofNat

section

open Dialogue

variable {plan : Plan} {progress : Progress} {r : Report} {calls : List Call} {stage : Stage} {ε : Type}

theorem keeps_moves {q : Question} {Q : q.Answer → List Call → Prop}
    (hQ : ∀ a made, (Exchange.mk q (some a)).Makes plan made → Q a (calls ++ made)) :
    (ask q ends).Keeps (processMoves plan) (fun _ => True) Q calls := by
  refine ⟨fun _ _ => trivial, ?_⟩
  rintro a _ ⟨made, rfl, hmade⟩
  exact hQ a made hmade

theorem keeps_still {q : Question} {Q : q.Answer → List Call → Prop}
    (hq : ∀ a made, (Exchange.mk q (some a)).Makes plan made → made = []) (hQ : ∀ a, Q a calls) :
    (ask q ends).Keeps (processMoves plan) (fun _ => True) Q calls := by
  refine keeps_moves fun a made hmade => ?_
  rw [hq a made hmade, List.append_nil]
  exact hQ a

theorem reached_still {outcome : Outcome} {note : Option String} {Q : Report → List Call → Prop}
    (hQ : Q (r.record stage outcome note) calls) :
    Reached (processMoves plan) (fun _ => True) stage outcome note Q r calls :=
  keeps_still (fun _ _ hmade => hmade) fun _ => hQ

theorem Clean.completed (hcalls : Clean calls) :
    Completed (processMoves plan) (fun _ => True) (Coded plan) plan progress stage (fun _ _ calls => Clean calls) r
      calls := by
  refine ⟨trivial, fun t _ => keeps_still (fun _ _ hmade => hmade) fun result => ?_⟩
  cases result with
  | ok u => exact hcalls
  | error e => exact (congrArg (Option.map Int.ofNat) (hcalls _)).symm

theorem Clean.advances (hcalls : Clean calls) {op : Dialogue (Except ε Unit)} {q : Question}
    {made : Except ε Unit → Exchange} {wrap : ε → Failure} {code : ε → Option Int} {kind : FailureKind}
    (hop : Asks op q made) (hcode : ∀ e, (wrap e).commandCode = code e) (hkind : ∀ e, (wrap e).kind = kind)
    (hmoves : ∀ result more, (made result).Makes plan more → Attempted (plan.commands kind) code result more) :
    Advances (processMoves plan) (fun _ => True) (Coded plan) plan progress stage op wrap
      (fun _ _ calls => Clean calls) r calls := by
  refine hop.advances (fun _ _ => trivial) ?_ ?_
  · rintro e _ ⟨more, rfl, hmore⟩
    have hfailed : FailedAt (plan.commands kind) (code e) more := hmoves _ _ hmore
    rw [Coded, hcode, hkind]
    exact hfailed.code_eq (hcalls _)
  · rintro _ ⟨more, rfl, hmore⟩
    have hmade : EndsWell more := hmoves _ _ hmore
    exact reached_still (hmade.clean calls).completed

variable {environment packages : String}

/-- The calls at the start of a run: no clone was tried. -/
def Opened (plan : Plan) (calls : List Call) : Prop := lastCode (plan.commands .acquisition) calls = none

theorem Opened.refused (hcalls : Opened plan calls) (message : String) : Coded plan (refused message) r calls :=
  (congrArg (Option.map Int.ofNat) hcalls).symm

/-- The checkout is there, and that is recorded. -/
def Secured (plan : Plan) (progress : Progress) (r : Report) (calls : List Call) : Prop :=
  Completed (processMoves plan) (fun _ => True) (Coded plan) plan progress .cloned (fun _ _ calls => Clean calls) r
    calls

theorem Clean.takesUp (hcalls : Clean calls) (loaded : Option Progress) :
    TakesUp (fun _ => True) plan (Secured plan) r loaded calls := by
  cases loaded with
  | none => exact ⟨trivial, fun t => hcalls.completed⟩
  | some p =>
    rw [TakesUp]
    split
    · exact hcalls.completed
    · exact ⟨trivial, fun t => hcalls.completed⟩

theorem Opened.resumes (hcalls : Opened plan calls) :
    Resumes (processMoves plan) (fun _ => True) (Coded plan) plan (Secured plan) r calls := by
  rw [Resumes]
  split
  · exact hcalls.refused
  · refine keeps_moves fun isTree made hasked => ?_
    obtain ⟨htree, hargs⟩ := hasked
    have hmade : ∀ call ∈ made, call.status.success = true ∨ plan.commands .acquisition call.args = false := by
      intro call hcall
      rw [hargs call hcall]
      exact .inr rfl
    split
    · next hisTree =>
      refine ⟨trivial, reached_still (keeps_still (fun _ _ hmade => hmade) fun loaded => ?_)⟩
      exact Clean.takesUp ((htree hisTree).clean calls) loaded
    · exact Opened.refused (lastCode_append_eq_none hcalls hmade)

theorem Opened.clones (hcalls : Opened plan calls) :
    Clones (processMoves plan) (fun _ => True) (Coded plan) plan (Secured plan) r calls := by
  refine keeps_moves fun result made hmade => ?_
  cases result with
  | ok u =>
    have hmade : EndsWell made := hmade
    rw [Tried]
    exact reached_still (And.intro trivial fun t => (hmade.clean calls).completed)
  | error e =>
    have hfailed : FailedAt (plan.commands .acquisition) e.exitCode made := hmade
    exact hfailed.code_eq hcalls

theorem Opened.acquire (hcalls : Opened plan calls) :
    Step.Holds (processMoves plan) (fun _ => True) (Coded plan) (acquire (.asked environment packages) plan)
      (Secured plan) r calls := by
  refine holds_acquire (quiet_processMoves plan) (keeps_still (fun _ _ hmade => hmade) fun there => ?_)
  split
  · exact hcalls.resumes
  · exact ⟨trivial, hcalls.clones⟩

theorem keeps_begin :
    (ask .ensureAvailable ends).Keeps (processMoves plan) (fun _ => True)
      (Tried .acquisition
        (fun _ calls => Step.Holds (processMoves plan) (fun _ => True) (Coded plan)
          (acquire (.asked environment packages) plan) (Secured plan) r calls)
        (fun f calls => Coded plan f r calls)) [] := by
  refine keeps_moves fun result made htried => ?_
  obtain ⟨hcode, hargs⟩ := htried
  have hopened : Opened plan ([] ++ made) := by
    refine lastCode_append_eq_none rfl fun call hcall => ?_
    rw [hargs call hcall]
    exact .inr rfl
  cases result with
  | ok u => exact hopened.acquire
  | error e => exact (hcode e rfl).trans (congrArg (Option.map Int.ofNat) hopened).symm

theorem Clean.pin (hcalls : Clean calls) :
    Step.Holds (processMoves plan) (fun _ => True) (Coded plan) (pin (.asked environment packages) plan progress)
      (fun _ _ calls => Clean calls) r calls := by
  refine holds_pin (quiet_processMoves plan) trivial (fun _ _ => reached_still hcalls) fun revision hrevision _ => ?_
  have hown : plan.commands .revision = Git.isCheckout revision := by
    funext args
    rw [Plan.commands, (pinnedRevision_eq_some hrevision).2]
    rfl
  have hmoves : ∀ result more, (Exchange.mk (.checkout plan.checkout revision) (some result)).Makes plan more →
      Attempted (plan.commands .revision) CommandFailure.exitCode result more := by
    rw [hown]
    exact fun _ _ hmade => hmade
  exact hcalls.advances (asks_checkout _ revision) (fun _ => rfl) (fun _ => rfl) hmoves

theorem Clean.sync (hcalls : Clean calls) :
    Step.Holds (processMoves plan) (fun _ => True) (Coded plan) (sync (.asked environment packages) plan progress)
      (fun _ _ calls => Clean calls) r calls :=
  holds_sync (quiet_processMoves plan) trivial (fun _ _ => reached_still hcalls) fun _ _ =>
    hcalls.advances (asks_pull _) (fun _ => rfl) (fun _ => rfl) fun _ _ hmade => hmade

theorem Clean.configure (hcalls : Clean calls) :
    Step.Holds (processMoves plan) (fun _ => True) (Coded plan)
      (configure (.asked environment packages) plan progress) (fun _ _ _ => True) r calls := by
  refine holds_configure (quiet_processMoves plan) (fun _ _ => reached_still trivial) fun tool _ => ?_
  refine keeps_still (fun _ _ hmade => hmade) fun result => ?_
  cases result with
  | ok changed =>
    rw [Applied]
    exact reached_still (hcalls.completed.mono fun _ _ _ _ => trivial)
  | error failure =>
    rw [Applied]
    split
    · exact ⟨trivial, fun _ => reached_still trivial⟩
    · exact (congrArg (Option.map Int.ofNat) (hcalls _)).symm

theorem Clean.provision (hcalls : Clean calls) {p : Provisioner Dialogue} {q : Question}
    {made : Except ProvisionFailure Unit → Exchange} {wrap : ProvisionFailure → Failure} {kind : FailureKind}
    (hop : Asks p.setup q made) (hcode : ∀ e, (wrap e).commandCode = e.code) (hkind : ∀ e, (wrap e).kind = kind)
    (hmoves : ∀ result more, (made result).Makes plan more →
      Attempted (plan.commands kind) ProvisionFailure.code result more) (title : String) :
    Step.Holds (processMoves plan) (fun _ => True) (Coded plan)
      (provision (.asked environment packages) plan progress p stage wrap title)
      (fun _ _ calls => Clean calls) r calls :=
  holds_provision (quiet_processMoves plan) trivial (fun _ _ => reached_still hcalls)
    fun _ => hcalls.advances hop hcode hkind hmoves

theorem Clean.setupEnvironment {title : String} (hcalls : Clean calls) :
    Step.Holds (processMoves plan) (fun _ => True) (Coded plan)
      (Procedure.provision (.asked environment packages) plan progress ⟨environment, ask .setupEnvironment ends⟩
        .envReady .environmentSetup title) (fun _ _ calls => Clean calls) r calls := by
  have hcode : ∀ e, (Failure.environmentSetup e).commandCode = e.code := by
    intro e
    cases e <;> rfl
  refine hcalls.provision asks_setupEnvironment hcode (fun _ => rfl) ?_ title
  exact fun _ _ hmade => hmade

theorem Clean.setupPackages {title : String} (hcalls : Clean calls) :
    Step.Holds (processMoves plan) (fun _ => True) (Coded plan)
      (Procedure.provision (.asked environment packages) plan progress ⟨packages, ask .setupPackages ends⟩ .pkgsReady
        .packageInstall title) (fun _ _ calls => Clean calls) r calls := by
  have hcode : ∀ e, (Failure.packageInstall e).commandCode = e.code := by
    intro e
    cases e <;> rfl
  refine hcalls.provision asks_setupPackages hcode (fun _ => rfl) ?_ title
  exact fun _ _ hmade => hmade

/-- A failure has the code of the step's own command. -/
theorem keeps_coded :
    Step.Holds (processMoves plan) (fun _ => True) (Coded plan) (stages (.asked environment packages) plan)
      (fun _ _ _ => True) r [] :=
  holds_stages (quiet_processMoves plan) keeps_begin (fun _ _ _ hcalls => Clean.pin hcalls)
    (fun _ _ _ hcalls => Clean.sync hcalls) (fun _ _ _ _ hcalls => Clean.setupEnvironment hcalls)
    (fun _ _ _ _ hcalls => Clean.setupPackages hcalls) (fun _ _ _ hcalls => Clean.configure hcalls)

/-- How a run ended, with the programs that it started. -/
def EndsCoded (plan : Plan) : Except Failure Unit × Report → List Call → Prop
  | (.ok _, report), _ => report.stage = .done
  | (.error f, report), made => report.stage = .failed f.kind ∧ Coded plan f report made

theorem keeps_endsCoded :
    (run (.asked environment packages) plan r).Keeps (processMoves plan) (fun _ => True) (EndsCoded plan) [] := by
  refine keeps_run (Keeps.mono keeps_coded fun out calls hout => ?_)
  obtain ⟨result, r⟩ := out
  cases result with
  | ok u => exact keeps_moves fun _ _ _ => keeps_still (fun _ _ hmade => hmade) fun _ => rfl
  | error f => exact ⟨rfl, hout⟩

end

open HostM in
/-- The programs that the collaborators of a plan start. -/
theorem makes_answer (plan : Plan) (quiet : Bool) (q : Question) :
    Makes ((Collaborators.ofPlan plan quiet).answer q) fun a made => (Exchange.mk q (some a)).Makes plan made := by
  cases q with
  | ensureAvailable => exact Git.makes_ensureAvailable "git"
  | clone url dest => exact Git.makes_clone "git" url dest (by simp [Git.isClone])
  | checkout repo revision =>
    exact Git.makes_checkout "git" repo (by simp [Git.isCheckout]) (by simp [Git.isCheckout])
  | pull repo => exact Git.makes_pull "git" repo (by simp [Git.isPull]) rfl
  | isWorkTree repo => exact Git.makes_isWorkTree "git" repo
  | headRevision repo => exact (Git.makes_ask "git" repo _).bind fun _ _ _ => makes_pure trivial
  | resolveRevision repo revision => exact (Git.makes_ask "git" repo _).bind fun _ _ _ => makes_pure trivial
  | setupEnvironment => exact Script.makes_setup _ _ _ (by simp [Plan.commands])
  | setupPackages => exact Script.makes_setup _ _ _ (by simp [Plan.commands])
  | present path => exact Silent.makes (fun _ => rfl) fun _ => rfl
  | load checkout => exact (closed_silent.load checkout).makes fun _ => rfl
  | store checkout progress => exact (closed_silent.save (fun _ => silent_writeText _ _) progress).makes fun _ => rfl
  | applySetting file key tool => exact (closed_silent.apply (fun _ => silent_writeText _ _) key tool).makes fun _ => rfl
  | now => exact Silent.makes (fun _ => rfl) fun _ => rfl
  | log level message => exact (closed_silent.log _ _ _).makes fun _ => rfl
  | banner message => exact (closed_silent.banner quiet message).makes fun _ => rfl

theorem carryOut_endsCoded (plan : Plan) (quiet : Bool) (h : Host) :
    ∃ result report h' made, (plan.carryOut quiet).run h = ((result, report), h') ∧ h'.calls = h.calls ++ made ∧
      EndsCoded plan (result, report) made := by
  have hanswers : ∀ q (v : Host) (calls : List Call), v.calls = h.calls ++ calls → ∃ calls',
      processMoves plan calls ⟨q, some (((Collaborators.ofPlan plan quiet).answer q).run v).1⟩ calls' ∧
        (((Collaborators.ofPlan plan quiet).answer q).run v).2.calls = h.calls ++ calls' := by
    intro q v calls hv
    obtain ⟨made, hmade, hmakes⟩ := makes_answer plan quiet q v
    exact ⟨calls ++ made, ⟨made, rfl, hmakes⟩, by rw [hmade, hv, List.append_assoc]⟩
  have hkeeps : (run (questions (.ofPlan plan quiet)) plan (.ofPlan plan)).Keeps (processMoves plan) (fun _ => True)
      (EndsCoded plan) [] := keeps_endsCoded
  obtain ⟨made, hends, hmade⟩ := hkeeps.hold (R := fun (v : Host) calls => v.calls = h.calls ++ calls) hanswers
    (List.append_nil _).symm
  rw [hold_run] at hends hmade
  exact ⟨_, _, _, made, rfl, hmade, hends⟩

/-! ## The exit status -/

theorem lastCode_ne_zero {own : List String → Bool} {calls : List Call} {n : Nat}
    (hcode : lastCode own calls = some n) : n ≠ 0 := by
  rw [lastCode, Option.bind_eq_some_iff] at hcode
  obtain ⟨call, _, hcode⟩ := hcode
  split at hcode
  · simpa using (Option.filter_eq_some_iff.mp hcode).2
  · cases hcode

theorem Failure.exitCode_eq {f : Failure} {code : Option Nat} (hcode : f.commandCode = code.map Int.ofNat)
    (hne : ∀ n, code = some n → n ≠ 0) : f.exitCode = (code.map Int.ofNat).getD 1 := by
  rw [exitCode, hcode]
  cases code with
  | none => rfl
  | some n =>
    have hn : Int.ofNat n ≠ 0 := fun h => hne n rfl (Int.ofNat.inj h)
    exact if_neg hn

/-- The result is no failure of a command. -/
def Uncoded {α : Type} (result : Except Failure α) : Prop := ∀ e, result = .error e → e.commandCode = none

theorem uncoded_ok {α : Type} (a : α) : Uncoded (.ok a) := nofun

theorem uncoded_error {α : Type} {e : Failure} (he : e.commandCode = none) :
    Uncoded (.error e : Except Failure α) := by
  rintro _ ⟨⟩
  exact he

theorem Uncoded.map {α β : Type} {result : Except Failure α} (hresult : Uncoded result) (f : α → β) :
    Uncoded (result.map f) := by
  cases result with
  | ok a => exact uncoded_ok _
  | error e => exact uncoded_error (hresult e rfl)

theorem uncoded_mapError {ε α : Type} {wrap : ε → Failure} (hwrap : ∀ e, (wrap e).commandCode = none)
    (result : Except ε α) : Uncoded (result.mapError wrap) := by
  cases result with
  | ok a => exact uncoded_ok a
  | error e => exact uncoded_error (hwrap e)

open HostM in
theorem makes_settings (o : Options) (workdir : Path) :
    Makes (o.settings workdir) fun result _ => Uncoded result := by
  have hread : ∀ file, Makes (Settings.read file) fun result _ => Uncoded result := by
    intro file
    refine (closed_silent.log _ _ _).bind fun _ => Silent.bind (fun _ => rfl) fun result => ?_
    cases result with
    | error e => exact makes_pure (uncoded_error rfl)
    | ok text => exact makes_pure (uncoded_mapError (fun _ => rfl) _)
  have hload : Makes (Settings.load o.config workdir) fun result _ => Uncoded result := by
    refine (closed_silent.chooseSettings o.config workdir).bind fun file? => ?_
    cases file? with
    | some file => exact hread file
    | none => exact (closed_silent.log _ _ _).bind fun _ => makes_pure (uncoded_ok _)
  exact hload.bind fun result _ hresult => makes_pure (hresult.map o.applyTo)

theorem uncoded_workdirOn (o : Options) (h : Host) : Uncoded (o.workdirOn.run h).1 := by
  unfold Options.workdirOn
  cases o.workdir with
  | some dir => exact uncoded_ok dir
  | none => exact uncoded_mapError (fun _ => rfl) _

theorem uncoded_plan (o : Options) (h : Host) : Uncoded (o.plan.run h).1 := by
  have hworkdir := uncoded_workdirOn o h
  rw [Options.plan, HostM.run_bind]
  generalize o.workdirOn.run h = start at hworkdir ⊢
  obtain ⟨found, h₁⟩ := start
  cases found with
  | error e => exact uncoded_error (hworkdir e rfl)
  | ok workdir =>
    dsimp only
    rw [HostM.run_bind, Options.resolve, HostM.run_bind]
    obtain ⟨_, _, hsettings⟩ := makes_settings o workdir h₁
    cases hresult : ((o.settings workdir).run h₁).1 with
    | error e =>
      rw [hresult] at hsettings
      exact uncoded_error (hsettings e rfl)
    | ok settings => exact uncoded_mapError (fun _ => rfl) _

/-- The exit status that a result makes. -/
def exitStatus : Except Failure Unit → Int
  | .ok _ => 0
  | .error f => f.exitCode

section

variable {o : Options} {h h₀ h₁ h₂ : Host} {result : Except Failure Unit} {report : Report}

theorem Program.run_start {env : Environment} {args : List String}
    (hparse : CommandLine.parse (Program.fallbacks env) args = .ok o) (hcommand : o.command = .run)
    (hlog : (Program.setUpLog o env).run { h with colour := Program.forcesColour env } = ((), h₀))
    (hmain : (Command.runMain o).run h₀ = (result, h₁)) :
    ∃ h', (Program.start env args).run h = (exitStatus result, h') := by
  have hcolour : (modify fun h => { h with colour := Program.forcesColour env } : HostM PUnit).run h =
      (⟨⟩, { h with colour := Program.forcesColour env }) := rfl
  have hperform : o.perform = Command.runMain o := by rw [Options.perform, hcommand]
  rw [Program.start, hparse]
  dsimp only
  rw [HostM.run_bind, hcolour, HostM.run_bind, hlog, HostM.run_bind, hperform, hmain]
  cases result with
  | ok u => exact ⟨_, rfl⟩
  | error f => exact ⟨_, rfl⟩

/-- What is left to do once the procedure has come to its result. -/
theorem Command.run_runMain_eq {plan : Plan} (hplan : o.plan.run h₀ = (.ok plan, h₁))
    (hrun : (plan.carryOut o.quiet).run h₁ = ((result, report), h₂)) :
    (Command.runMain o).run h₀ =
      if o.json then ((HostM.printJson report.json).run h₂).map (fun printed => printed.bind fun _ => result) id
      else (result, if result.isOk && !o.quiet then (report.print.run h₂).2 else h₂) := by
  rw [Command.runMain, HostM.run_bind, hplan]
  dsimp only
  rw [HostM.run_bind, hrun]
  dsimp only
  split
  · rfl
  · split
    · rfl
    · rfl

theorem Command.run_runMain {plan : Plan} (hplan : o.plan.run h₀ = (.ok plan, h₁))
    (hrun : (plan.carryOut o.quiet).run h₁ = ((result, report), h₂))
    (hwritten : o.json = false ∨ report.isUnicode = true) :
    ∃ h₃, (Command.runMain o).run h₀ = (result, h₃) := by
  rw [Command.run_runMain_eq hplan hrun]
  split
  · next hjson =>
    have hunicode : report.isUnicode = true := hwritten.resolve_left (by simp [hjson])
    rw [report.json_eq, if_pos hunicode]
    exact ⟨_, rfl⟩
  · exact ⟨_, rfl⟩

theorem Command.run_runMain_unwritten {plan : Plan} (hplan : o.plan.run h₀ = (.ok plan, h₁))
    (hrun : (plan.carryOut o.quiet).run h₁ = ((result, report), h₂)) (hjson : o.json = true)
    (hunicode : report.isUnicode = false) :
    (Command.runMain o).run h₀ = (.error (.json ⟨.pathNotUnicode, none⟩), h₂) := by
  rw [Command.run_runMain_eq hplan hrun, if_pos hjson, report.json_eq, if_neg (by simp [hunicode])]
  rfl

theorem Command.run_runMain_error {failure : Failure} (hplan : o.plan.run h₀ = (.error failure, h₁)) :
    (Command.runMain o).run h₀ = (.error failure, h₁) := by
  rw [Command.runMain, HostM.run_bind, hplan]
  rfl

end

theorem EndsCoded.exitStatus {plan : Plan} {result : Except Failure Unit} {report : Report} {made : List Call}
    (hends : EndsCoded plan (result, report) made) :
    (exitStatus result = 0 ↔ report.stage = .done) ∧
      (report.stage ≠ .done → ∃ kind, report.stage = .failed kind ∧
        Bringup.exitStatus result = ((lastCode (plan.commands kind) made).map Int.ofNat).getD 1) := by
  cases result with
  | ok u => exact ⟨⟨fun _ => hends, fun _ => rfl⟩, fun hdone => absurd hends hdone⟩
  | error f =>
    obtain ⟨hstage, hcoded⟩ := hends
    refine ⟨⟨fun hzero => absurd hzero f.exitCode_ne_zero, fun hdone => ?_⟩, fun _ => ⟨f.kind, hstage, ?_⟩⟩
    · rw [hstage] at hdone
      cases hdone
    · exact Failure.exitCode_eq hcoded fun _ => lastCode_ne_zero

/-- The exit status of a run. It is zero exactly if the run came to its end. Otherwise it is the code that the
command of the step which failed exited with, and one if there is no such code. All this is so unless the report is to
be printed as JSON and has a path that is not Unicode; the exit status is then one, whatever the run came to. -/
theorem exit_status_of_run (env : Environment) (args : List String) (h : Host) {o : Options}
    (hparse : CommandLine.parse (Program.fallbacks env) args = .ok o) (hcommand : o.command = .run) :
    ∃ code h' h₀, (Program.start env args).run h = (code, h') ∧
      (Program.setUpLog o env).run { h with colour := Program.forcesColour env } = ((), h₀) ∧
      ((∃ failure h₁, o.plan.run h₀ = (.error failure, h₁) ∧ code = 1) ∨
        ∃ plan h₁ result report h₂ made, o.plan.run h₀ = (.ok plan, h₁) ∧
          (plan.carryOut o.quiet).run h₁ = ((result, report), h₂) ∧ h₂.calls = h₁.calls ++ made ∧
          (o.json = true → report.isUnicode = false → code = 1) ∧
          (o.json = false ∨ report.isUnicode = true →
            (code = 0 ↔ report.stage = .done) ∧
            (report.stage ≠ .done → ∃ kind, report.stage = .failed kind ∧
              code = ((lastCode (plan.commands kind) made).map Int.ofNat).getD 1))) := by
  obtain ⟨h₀, hlog⟩ : ∃ h₀,
      (Program.setUpLog o env).run { h with colour := Program.forcesColour env } = ((), h₀) := ⟨_, rfl⟩
  cases hplan : o.plan.run h₀ with
  | mk planned h₁ =>
    cases planned with
    | error failure =>
      obtain ⟨h', hstart⟩ := Program.run_start hparse hcommand hlog (Command.run_runMain_error hplan)
      have huncoded : failure.commandCode = Option.map Int.ofNat none :=
        uncoded_plan o h₀ failure (congrArg Prod.fst hplan)
      have hone : exitStatus (.error failure) = 1 := Failure.exitCode_eq huncoded nofun
      exact ⟨_, h', h₀, hstart, hlog, .inl ⟨failure, h₁, hplan, hone⟩⟩
    | ok plan =>
      obtain ⟨result, report, h₂, made, hrun, hmade, hends⟩ := carryOut_endsCoded plan o.quiet h₁
      by_cases hwritten : o.json = false ∨ report.isUnicode = true
      · obtain ⟨h₃, hmain⟩ := Command.run_runMain hplan hrun hwritten
        obtain ⟨h', hstart⟩ := Program.run_start hparse hcommand hlog hmain
        have hone : o.json = true → report.isUnicode = false → exitStatus result = 1 := by
          intro hjson hunicode
          simp [hjson, hunicode] at hwritten
        exact ⟨_, h', h₀, hstart, hlog,
          .inr ⟨plan, h₁, result, report, h₂, made, hplan, hrun, hmade, hone, fun _ => hends.exitStatus⟩⟩
      · obtain ⟨hjson, hunicode⟩ : o.json = true ∧ report.isUnicode = false := by simpa using hwritten
        obtain ⟨h', hstart⟩ :=
          Program.run_start hparse hcommand hlog (Command.run_runMain_unwritten hplan hrun hjson hunicode)
        exact ⟨_, h', h₀, hstart, hlog, .inr ⟨plan, h₁, result, report, h₂, made, hplan, hrun, hmade, fun _ _ => rfl,
          fun h => absurd h hwritten⟩⟩

/-- A host whose program for source control cannot clone. -/
def strandedHost : Host where
  files := ⟨[(["bin"], .directory),
    (["bin", "git"], .program [{ args := some [some "clone"], status := .exited 128 }] true)]⟩

theorem exit_status_of_stranded_run :
    ∃ o, CommandLine.parse (Program.fallbacks []) ["run", "-q", "--revision", "v1"] = .ok o ∧ o.command = .run ∧
      ∃ h' h₀ plan h₁ result report h₂ made kind,
        (Program.start [] ["run", "-q", "--revision", "v1"]).run strandedHost = (128, h') ∧
        o.plan.run h₀ = (.ok plan, h₁) ∧ (plan.carryOut o.quiet).run h₁ = ((result, report), h₂) ∧
        h₂.calls = h₁.calls ++ made ∧ report.stage = .failed kind ∧
        (128 : Int) = ((lastCode (plan.commands kind) made).map Int.ofNat).getD 1 := by
  have hcode : ((Program.start [] ["run", "-q", "--revision", "v1"]).run strandedHost).1 = 128 := by decide +kernel
  obtain ⟨o, hparse, hcommand, hjson⟩ : ∃ o,
      CommandLine.parse (Program.fallbacks []) ["run", "-q", "--revision", "v1"] = .ok o ∧ o.command = .run ∧
        o.json = false :=
    ⟨_, rfl, rfl, rfl⟩
  obtain ⟨code, h', h₀, hstart, _, hends⟩ :=
    exit_status_of_run [] ["run", "-q", "--revision", "v1"] strandedHost hparse hcommand
  rw [hstart] at hcode
  obtain rfl : code = 128 := hcode
  rcases hends with ⟨_, _, _, hone⟩ | ⟨plan, h₁, result, report, h₂, made, hplan, hrun, hmade, _, hcoded⟩
  · cases hone
  · obtain ⟨hzero, hfailed⟩ := hcoded (.inl hjson)
    have hdone : report.stage ≠ .done := fun hdone => absurd (hzero.mpr hdone) (by decide)
    obtain ⟨kind, hstage, hkind⟩ := hfailed hdone
    exact ⟨o, hparse, hcommand, h', h₀, plan, h₁, result, report, h₂, made, kind, hstart, hplan, hrun, hmade, hstage,
      hkind⟩

/-- A host in a directory whose name is no Unicode, with a checkout in it. -/
def strayHost : Host where
  cwd := [[.stray [0xFF]]]
  files := ⟨[([[.stray [0xFF]]], .directory), ([[.stray [0xFF]], "fiber"], .directory),
    ([[.stray [0xFF]], "fiber", ".git"], .directory),
    ([[.stray [0xFF]], "fiber", "setup_angr_env.sh"], .file []),
    ([[.stray [0xFF]], "fiber", "install_pkgs.sh"], .file []), (["bin"], .directory),
    (["bin", "git"], .program [
      { args := some [some "rev-parse", some "--is-inside-work-tree"], stdout := Text.Utf8.encode "true\n" }] true),
    (["bin", "bash"], .program [] true)]⟩

/-- A run goes on in the checkout, and its report is to be JSON. -/
def resumedReportingRun : List String := ["run", "-q", "--resume", "--json", "--revision", "v1"]

/-- The run comes to its end, and the exit status is one. -/
theorem exit_status_of_finished_run_is_one :
    ∃ o h₀ plan h₁ report h₂ h', CommandLine.parse (Program.fallbacks []) resumedReportingRun = .ok o ∧
      o.command = .run ∧
      (Program.setUpLog o []).run { strayHost with colour := Program.forcesColour [] } = ((), h₀) ∧
      o.plan.run h₀ = (.ok plan, h₁) ∧ (plan.carryOut o.quiet).run h₁ = ((.ok (), report), h₂) ∧
      report.stage = .done ∧ (Program.start [] resumedReportingRun).run strayHost = (1, h') := by
  have hcode : ((Program.start [] resumedReportingRun).run strayHost).1 = 1 := by decide +kernel
  let o : Options :=
    { given := some .run, revision := some "v1", resume := true, quiet := true, json := true }
  have hparse : CommandLine.parse (Program.fallbacks []) resumedReportingRun = .ok o := rfl
  let h₀ := ((Program.setUpLog o []).run { strayHost with colour := Program.forcesColour [] }).2
  have hrun : (((o.plan.run h₀).1.toOption.map fun plan =>
      ((plan.carryOut true).run (o.plan.run h₀).2).1).any fun out =>
      decide (out.1.isOk = true ∧ out.2.stage = .done)) = true := by decide +kernel
  generalize hplan : o.plan.run h₀ = planned at hrun
  generalize hstart : (Program.start [] resumedReportingRun).run strayHost = ended at hcode
  obtain ⟨planned, h₁⟩ := planned
  obtain ⟨code, h'⟩ := ended
  obtain rfl : code = 1 := hcode
  cases planned with
  | error e => cases hrun
  | ok plan =>
    rw [Except.toOption, Option.map_some, Option.any_some] at hrun
    generalize hout : (plan.carryOut true).run h₁ = out at hrun
    obtain ⟨⟨result, report⟩, h₂⟩ := out
    obtain ⟨hok, hdone⟩ := of_decide_eq_true hrun
    cases result with
    | error f => cases hok
    | ok u => exact ⟨o, h₀, plan, h₁, report, h₂, h', hparse, rfl, rfl, hplan, hout, hdone, rfl⟩

end Bringup
