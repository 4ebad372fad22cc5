import Bringup.Program
import Bringup.Proofs.Dialogue
import Bringup.Proofs.Spelling

/-!
# Properties that sequencing keeps

* `HostM.Closed`: a property that is kept when one computation follows another, and that looking at the host, the
  log, the clock and the standard error have.
* What has such a property if the programs it starts and the files it writes do: `Closed.answer`, every question of a
  run; `Closed.plan`, making a plan; `Closed.carryOut`, a whole run; `Closed.statusMain`, `Closed.guideMain`.
-/

namespace Bringup

set_option autoImplicit false

open Bringup.Text (Bytes)

/-- The arguments that check out a revision. -/
def Git.checkoutArgs (revision : String) : List String :=
  ["-c", "advice.detachedHead=false", "checkout", "--quiet", revision]

/-- The arguments that every pull starts with. -/
def Git.pullArgs : List String := ["pull", "--no-rebase", "--no-edit"]

theorem ToolSearch.mem_of_mem_distinct {p : Path} {paths : List Path} (h : p ∈ distinct paths) : p ∈ paths := by
  have hfold : ∀ (paths kept : List Path),
      p ∈ paths.foldl (fun kept p => if kept.any p.same then kept else kept ++ [p]) kept → p ∈ kept ∨ p ∈ paths := by
    intro paths
    induction paths with
    | nil => exact fun kept h => .inl h
    | cons q paths ih =>
      intro kept h
      rcases ih _ h with hkept | hpaths
      · dsimp only at hkept
        split at hkept
        · exact .inl hkept
        · rcases List.mem_append.mp hkept with hkept | hq
          · exact .inl hkept
          · rw [List.mem_singleton.mp hq]
            exact .inr List.mem_cons_self
      · exact .inr (List.mem_cons_of_mem _ hpaths)
  exact (hfold paths [] h).resolve_left List.not_mem_nil

theorem ToolSearch.isAbsolute_of_mem_directories {policy : Policy} {searchPath : Option Text.Raw} {home : Option Path}
    {dir : Path} (h : dir ∈ directories policy searchPath home) : dir.isAbsolute = true :=
  (List.mem_filter.mp (mem_of_mem_distinct h)).2

/-- A first search for the disassembler has no answer to go back to. -/
theorem ToolSearch.findDisassembler_eq : findDisassembler.run' {} = (do
    let status ← detectNow {} disassemblerTool
    let shown := describeOption (status.path.map fun p => p.spelling.quoted)
    HostM.log .debug target
      s!"Real-time detection for {disassemblerTool}: available={status.available}, path={shown}"
    return status.path.filter Path.isAbsolute : HostM (Option Path)) := rfl

/-- What of the host is the same throughout a command. -/
structure Host.Standing where
  cwd : Place
  home : Option Path
  searchPath : Option Text.Raw
  colour : Bool

/-- What the host has of it. -/
def Host.standing (h : Host) : Host.Standing := ⟨h.cwd, h.home, h.searchPath, h.colour⟩

/-- A host of which nothing else is known. -/
def Host.Standing.host (s : Host.Standing) : Host :=
  { cwd := s.cwd, home := s.home, searchPath := s.searchPath, colour := s.colour }

/-- A look at what stays the same. -/
def HostM.standing : HostM Host.Standing := do return (← get).standing

/-- Where only what stays the same is looked at, no more of the host is needed. -/
theorem HostM.get_bind_eq {α : Type} {k : Host → HostM α} (hview : ∀ h, k h = k h.standing.host) :
    get >>= k = HostM.standing >>= fun s => k s.host := by
  funext h
  exact congrFun (hview h) h

/-- The property is kept by sequencing, and computations have it that start no program, write no file and print
nothing on the standard output. -/
structure HostM.Closed (P : {α : Type} → HostM α → Prop) : Prop where
  pure : ∀ {α : Type} (a : α), P (pure a)
  bind : ∀ {α β : Type} {x : HostM α} {f : α → HostM β}, P x → (∀ a, P (f a)) → P (x >>= f)
  standing : P HostM.standing
  currentDirectory : P HostM.currentDirectory
  present : ∀ p, P (present p)
  isFile : ∀ p, P (isFile p)
  readText : ∀ p, P (readText p)
  log : ∀ level target message, P (log level target message)
  clock : P clock
  warnBytes : ∀ bs, P (warnBytes bs)
  setConsole : ∀ console, P (modify fun h => { h with console } : HostM PUnit)

/-- What every computation that starts no program, writes no file and prints nothing leaves as it was. -/
theorem HostM.closed_of_relation {R : Host → Host → Prop}
    (hquiet : ∀ (h : Host) readings console stderr logs, R h { h with readings, console, stderr, logs })
    (htrans : ∀ h₁ h₂ h₃, R h₁ h₂ → R h₂ h₃ → R h₁ h₃) : Closed fun x => ∀ h, R h (x.run h).2 where
  pure := fun _ h => hquiet h ..
  bind := fun hx hf h => htrans _ _ _ (hx h) (hf _ _)
  standing := fun h => hquiet h ..
  currentDirectory := fun h => hquiet h ..
  present := fun _ h => hquiet h ..
  isFile := fun _ h => hquiet h ..
  readText := fun _ h => hquiet h ..
  log := by
    intro level target message h
    obtain ⟨stderr, hlog⟩ := run_log level target message h
    rw [hlog]
    exact hquiet h ..
  clock := fun h => hquiet h ..
  warnBytes := fun _ h => hquiet h ..
  setConsole := fun _ h => hquiet h ..

namespace HostM.Closed

variable {P : {α : Type} → HostM α → Prop} {α β ε : Type}

/-! ## Ways to combine -/

theorem map (hP : Closed @P) {x : HostM α} (hx : P x) (f : α → β) : P (do return f (← x)) :=
  hP.bind hx fun a => hP.pure (f a)

theorem ite (c : Prop) [Decidable c] {x y : HostM α} (hx : c → P x) (hy : ¬ c → P y) : P (if c then x else y) := by
  by_cases hc : c
  · rw [if_pos hc]
    exact hx hc
  · rw [if_neg hc]
    exact hy hc

theorem withStanding (hP : Closed @P) {k : Host → HostM α} (hview : ∀ h, k h = k h.standing.host)
    (hk : ∀ h, P (k h)) : P (get >>= k) := by
  rw [get_bind_eq hview]
  exact hP.bind hP.standing fun s => hk s.host

theorem run_bind (hP : Closed @P) {x : ExceptT ε HostM α} {f : α → ExceptT ε HostM β} (hx : P x.run)
    (hf : ∀ a, P (f a).run) : P (x >>= f).run := by
  rw [ExceptT.run_bind]
  refine hP.bind hx fun result => ?_
  cases result with
  | ok a => exact hf a
  | error e => exact hP.pure _

theorem forM (hP : Closed @P) {f : α → HostM Unit} (hf : ∀ a, P (f a)) (xs : List α) : P (xs.forM f) := by
  induction xs with
  | nil => exact hP.pure _
  | cons x xs ih => exact hP.bind (hf x) fun _ => ih

/-- A dialogue has the property if every answer has. -/
theorem hold (hP : Closed @P) {c : Collaborators HostM} (hc : ∀ q, P (c.answer q)) (d : Dialogue α) :
    P (d.hold c) := by
  induction d with
  | ends a => exact hP.pure a
  | ask q next ih => exact hP.bind (hc q) ih

/-! ## The console -/

theorem now (hP : Closed @P) : P HostM.now := hP.map hP.clock _

theorem warnLine (hP : Closed @P) (s : String) : P (HostM.warnLine s) := hP.warnBytes _

theorem paint (hP : Closed @P) (look : Look) (s : String) : P (HostM.paint look s) :=
  hP.withStanding (fun _ => rfl) fun _ => hP.pure _

theorem banner (hP : Closed @P) (quiet : Bool) (message : String) : P (HostM.banner quiet message) := by
  refine hP.bind (hP.log ..) fun _ => ite _ (fun _ => ?_) fun _ => hP.pure ()
  exact hP.bind (hP.paint ..) fun _ => hP.bind (hP.paint ..) fun _ => hP.warnLine _

theorem setUpLog (hP : Closed @P) (o : Options) (env : Environment) : P (Program.setUpLog o env) := by
  refine ite _ (fun _ => hP.setConsole _) fun _ => hP.bind ?_ fun _ => hP.setConsole _
  induction (Program.logSpec env).complaints with
  | nil => exact hP.pure _
  | cons complaint complaints ih =>
    rw [List.forIn_cons]
    exact hP.bind (hP.bind (hP.warnLine _) fun _ => hP.pure _) fun step => by
      cases step with
      | done u => exact hP.pure _
      | yield u => exact ih

theorem complain (hP : Closed @P) (failure : Failure) : P (Program.complain failure) := by
  refine hP.bind (hP.paint ..) fun _ => hP.bind (hP.warnLine _) fun _ => ?_
  exact ite _ (fun _ => hP.warnLine _) fun _ => hP.pure ()

/-! ## The files of a checkout -/

theorem load (hP : Closed @P) (checkout : Path) : P (Progress.load checkout) := by
  refine hP.bind (hP.readText _) fun result => ?_
  cases result with
  | error e => exact hP.pure _
  | ok text =>
    dsimp only
    cases Progress.ofText text with
    | ok progress => exact hP.pure _
    | error e => exact hP.bind (hP.log ..) fun _ => hP.pure _

theorem save (hP : Closed @P) {checkout : Path} (hwrite : ∀ text, P (writeText (Progress.path checkout) text))
    (p : Progress) : P (Progress.save checkout p) := by
  refine hP.bind (hP.present _) fun there => ite _ (fun _ => hwrite _) fun _ => ?_
  exact hP.bind (hP.log ..) fun _ => hP.pure _

theorem apply (hP : Closed @P) {file : Path} (hwrite : ∀ text, P (writeText file text)) (key : String)
    (tool : Path) : P (Disassembler.apply file key tool) := by
  have hvalidate : P (Disassembler.validate tool) := by
    refine hP.bind (hP.isFile _) fun there => ite _ (fun _ => hP.pure _) fun _ => hP.pure _
  refine hP.run_bind hvalidate fun _ => hP.run_bind (hP.map (hP.isFile _) _) fun there => ?_
  cases there with
  | false => exact hP.pure _
  | true =>
    refine hP.run_bind (hP.map (hP.readText _) _) fun content => ?_
    split
    · exact hP.pure _
    · split
      · exact hP.run_bind (hP.map (hP.log ..) _) fun _ => hP.pure _
      · refine hP.run_bind (hP.map (hwrite _) _) fun _ => ?_
        exact hP.run_bind (hP.map (hP.log ..) _) fun _ => hP.pure _

/-! ## Programs -/

section

variable {name : String} {args : List String} {cwd : Option Path}

theorem stream (hP : Closed @P) (hrun : P (execute name args cwd)) : P (HostM.stream name args cwd) := by
  refine hP.bind (hP.log ..) fun _ => hP.bind hrun fun result => ?_
  cases result with
  | error e => exact hP.pure _
  | ok output => exact hP.bind (hP.warnBytes _) fun _ => hP.pure _

theorem isAvailable (hP : Closed @P) (hrun : P (execute name ["--version"] none)) : P (HostM.isAvailable name) :=
  hP.map hrun _

theorem ask (hP : Closed @P) {repo : Path} (hrun : P (execute name args (some repo))) : P (Git.ask name repo args) := by
  refine hP.bind (hP.bind (hP.log ..) fun _ => hrun) fun result => ?_
  cases result with
  | error e => exact hP.pure _
  | ok output => exact ite _ (fun _ => hP.pure _) fun _ => hP.pure _

theorem order (hP : Closed @P) (hstream : P (HostM.stream name args cwd)) : P (Git.order name cwd args) := by
  refine hP.bind hstream fun result => ?_
  cases result with
  | error e => exact hP.pure _
  | ok status => exact ite _ (fun _ => hP.pure _) fun _ => hP.pure _

theorem ensureAvailable (hP : Closed @P) (havailable : P (HostM.isAvailable name)) : P (Git.ensureAvailable name) :=
  hP.bind havailable fun _ => ite _ (fun _ => hP.pure _) fun _ => hP.pure _

theorem checkout (hP : Closed @P) {repo : Path} {revision : String}
    (hlookup : P (execute name (Git.resolveArgs revision) (some repo)))
    (hcheckout : P (execute name (Git.checkoutArgs revision) (some repo))) : P (Git.checkout name repo revision) := by
  refine hP.bind (hP.ask hlookup) fun result => ?_
  cases result with
  | error e => exact hP.pure _
  | ok id =>
    refine hP.bind (hP.ask hcheckout) fun result => ?_
    cases result with
    | error e => exact hP.pure _
    | ok text => exact hP.pure _

theorem pull (hP : Closed @P) {repo : Path}
    (hbranch : P (execute name ["symbolic-ref", "--short", "refs/remotes/origin/HEAD"] (some repo)))
    (hpull : ∀ more, P (HostM.stream name (Git.pullArgs ++ more) (some repo))) : P (Git.pull name repo) := by
  refine hP.bind (hP.bind (hP.ask hbranch) fun result => ?_) fun branch? => ?_
  · cases result with
    | error e => exact hP.pure _
    | ok full => exact hP.pure _
  · cases branch? with
    | none => exact hP.bind (hP.log ..) fun _ => hP.order (hpull [])
    | some branch => exact hP.bind (hP.log ..) fun _ => hP.order (hpull ["origin", branch])

theorem isWorkTree (hP : Closed @P) {repo : Path}
    (hrun : P (execute name ["rev-parse", "--is-inside-work-tree"] (some repo))) : P (Git.isWorkTree name repo) := by
  refine hP.bind (hP.present _) fun there => ite _ (fun _ => ?_) fun _ => hP.pure _
  refine hP.bind (hP.ask hrun) fun result => ?_
  cases result with
  | error e => exact hP.pure _
  | ok answer => exact hP.pure _

theorem headRevision (hP : Closed @P) {repo : Path} (hrun : P (execute name ["rev-parse", "HEAD"] (some repo))) :
    P (Git.headRevision name repo) :=
  hP.map (hP.ask hrun) _

theorem resolveRevision (hP : Closed @P) {repo : Path} {revision : String}
    (hrun : P (execute name (Git.resolveArgs revision) (some repo))) : P (Git.resolveRevision name repo revision) :=
  hP.map (hP.ask hrun) _

theorem setup (hP : Closed @P) {script : String} {workdir : Path}
    (hstream : P (HostM.stream name [script] (some workdir))) : P (Script.setup name script workdir) := by
  refine hP.bind (hP.isFile _) fun there => ite _ (fun _ => hP.pure _) fun _ => ?_
  refine hP.bind (hP.log ..) fun _ => hP.bind hstream fun result => ?_
  cases result with
  | error e => exact hP.pure _
  | ok status => exact ite _ (fun _ => hP.pure _) fun _ => hP.pure _

end

/-! ## Looking for tools -/

theorem firstWith (hP : Closed @P) (name : String) (dirs : List Path) : P (ToolSearch.firstWith name dirs) := by
  induction dirs with
  | nil => exact hP.pure none
  | cons dir dirs ih => exact hP.bind (hP.isFile _) fun there => ite _ (fun _ => hP.pure _) fun _ => ih

theorem firstWith_bind (hP : Closed @P) {name : String} {dirs : List Path} {k : Option (Path × Path) → HostM α}
    (hnone : P (k none)) (hsome : ∀ dir ∈ dirs, P (k (some (dir, dir.child name)))) :
    P (ToolSearch.firstWith name dirs >>= k) := by
  induction dirs with
  | nil => exact hnone
  | cons dir dirs ih =>
    rw [ToolSearch.firstWith, bind_assoc]
    refine hP.bind (hP.isFile _) fun there => ?_
    by_cases hthere : there = true
    · rw [if_pos hthere]
      exact hsome dir List.mem_cons_self
    · rw [if_neg hthere]
      exact ih fun dir hdir => hsome dir (List.mem_cons_of_mem _ hdir)

theorem probeVersion (hP : Closed @P) {tool : Path} (hrun : P (execute tool.spelling ["--version"] none)) :
    P (ToolSearch.probeVersion tool) := by
  refine hP.bind hrun fun result => ?_
  cases result with
  | error e => exact hP.pure _
  | ok output => exact hP.pure _

theorem detectNow (hP : Closed @P) {name : String}
    (hprobe : ∀ dir : Path, dir.isAbsolute = true → P (ToolSearch.probeVersion (dir.child name)))
    (policy : ToolSearch.Policy) : P (ToolSearch.detectNow policy name) := by
  refine hP.bind (hP.log ..) fun _ => hP.withStanding (fun _ => rfl) fun h => ?_
  refine hP.firstWith_bind (hP.bind (hP.log ..) fun _ => hP.map hP.clock _) fun dir hdir => ?_
  refine hP.bind (hprobe dir (ToolSearch.isAbsolute_of_mem_directories hdir)) fun _ => ?_
  exact hP.bind (hP.log ..) fun _ => hP.map hP.clock _

theorem search_bind (hP : Closed @P) {x : ToolSearch.SearchM α} {f : α → ToolSearch.SearchM β}
    (hx : ∀ d, P (x.run d)) (hf : ∀ a d, P ((f a).run d)) (d : ToolSearch.Detector) : P ((x >>= f).run d) := by
  rw [StateT.run_bind]
  exact hP.bind (hx d) fun out => hf out.1 out.2

theorem search_lift (hP : Closed @P) {x : HostM α} (hx : P x) (d : ToolSearch.Detector) :
    P ((liftM x : ToolSearch.SearchM α).run d) :=
  hP.map hx fun a => (a, d)

theorem recent (hP : Closed @P) (d : ToolSearch.Detector) (name : String) : P (ToolSearch.recent? d name) := by
  unfold ToolSearch.recent?
  cases d.kept.lookup name with
  | none => exact hP.pure _
  | some status => exact hP.map hP.clock _

theorem detect (hP : Closed @P) {name : String}
    (hprobe : ∀ dir : Path, dir.isAbsolute = true → P (ToolSearch.probeVersion (dir.child name)))
    (d : ToolSearch.Detector) : P ((ToolSearch.detect name).run d) := by
  refine hP.search_bind (fun d => hP.pure (d, d)) (fun known d => ?_) d
  by_cases hkeep : (!known.policy.keep) = true
  · rw [if_pos hkeep]
    exact hP.search_bind (hP.search_lift (hP.detectNow hprobe ..)) (fun _ d => hP.pure _) d
  · rw [if_neg hkeep]
    refine hP.search_bind (hP.search_lift (hP.recent known name)) (fun found d => ?_) d
    cases found with
    | some status => exact hP.search_bind (hP.search_lift (hP.log ..)) (fun _ d => hP.pure _) d
    | none =>
      refine hP.search_bind (hP.search_lift (hP.detectNow hprobe ..)) (fun status d => ?_) d
      refine hP.search_bind (hP.search_lift (hP.log ..)) (fun _ d => ?_) d
      exact hP.search_bind (fun d => hP.pure _) (fun _ d => hP.pure _) d

theorem findDisassembler (hP : Closed @P)
    (hprobe : ∀ dir : Path, dir.isAbsolute = true →
      P (ToolSearch.probeVersion (dir.child ToolSearch.disassemblerTool))) :
    P (ToolSearch.findDisassembler.run' {}) := by
  rw [ToolSearch.findDisassembler_eq]
  exact hP.bind (hP.detectNow hprobe _) fun _ => hP.map (hP.log ..) _

theorem detectRequired (hP : Closed @P) (hprobe : ∀ tool, P (ToolSearch.probeVersion tool)) (shell : String) :
    P ((ToolSearch.detectRequired shell).run' {}) := by
  have hall : ∀ names d, P ((ToolSearch.detectAll names).run d) := by
    intro names
    induction names with
    | nil => exact fun d => hP.pure _
    | cons name names ih =>
      exact hP.search_bind (hP.detect fun _ _ => hprobe _) fun status => hP.search_bind ih fun _ d => hP.pure _
  exact hP.map (hall _ {}) Prod.fst

/-! ## Making a plan -/

theorem chooseSettings (hP : Closed @P) (named : Option Path) (workdir : Path) : P (Settings.choose named workdir) := by
  unfold Settings.choose
  cases named with
  | some file => exact hP.pure _
  | none =>
    refine hP.bind (hP.isFile _) fun there => ite _ (fun _ => hP.pure _) fun _ => ?_
    refine hP.withStanding (fun _ => rfl) fun h => ?_
    cases Settings.globalPath h.home with
    | none => exact hP.pure _
    | some file => exact hP.bind (hP.isFile _) fun there => ite _ (fun _ => hP.pure _) fun _ => hP.pure _

theorem loadSettings (hP : Closed @P) (named : Option Path) (workdir : Path) : P (Settings.load named workdir) := by
  refine hP.bind (hP.chooseSettings ..) fun file? => ?_
  cases file? with
  | none => exact hP.bind (hP.log ..) fun _ => hP.pure _
  | some file =>
    refine hP.bind (hP.log ..) fun _ => hP.bind (hP.readText _) fun result => ?_
    cases result with
    | error e => exact hP.pure _
    | ok text => exact hP.pure _

theorem settings (hP : Closed @P) (o : Options) (workdir : Path) : P (o.settings workdir) :=
  hP.map (hP.loadSettings ..) _

theorem workdirOn (hP : Closed @P) (o : Options) : P o.workdirOn := by
  unfold Options.workdirOn
  cases o.workdir with
  | some dir => exact hP.pure _
  | none => exact hP.map hP.currentDirectory _

theorem withWorkdir (hP : Closed @P) (o : Options) {k : Path → HostM (Except Failure α)} (hk : ∀ dir, P (k dir)) :
    P (do
      match ← o.workdirOn with
      | .error e => return .error e
      | .ok workdir => k workdir) := by
  refine hP.bind (hP.workdirOn o) fun found => ?_
  cases found with
  | error e => exact hP.pure _
  | ok workdir => exact hk workdir

theorem printJson (hP : Closed @P) (hprint : ∀ s, P (HostM.print s)) (value : Except Json.Error Json) :
    P (HostM.printJson value) := by
  cases value with
  | error e => exact hP.pure _
  | ok value => exact hP.bind (hprint _) fun _ => hP.pure _

theorem withDetected (hP : Closed @P) (hfind : P (ToolSearch.findDisassembler.run' {})) (s : Settings) :
    P s.withDetected := by
  refine ite _ (fun _ => hP.bind hfind fun found? => ?_) fun _ => hP.pure _
  cases found? with
  | none => exact hP.pure _
  | some found => exact hP.bind (hP.log ..) fun _ => hP.pure _

theorem resolve (hP : Closed @P) (hfind : P (ToolSearch.findDisassembler.run' {})) (o : Options) (workdir : Path) :
    P (o.resolve workdir) := by
  refine hP.bind (hP.settings ..) fun result => ?_
  cases result with
  | error e => exact hP.pure _
  | ok settings => exact hP.map (hP.withDetected hfind settings) _

theorem plan (hP : Closed @P) (hfind : P (ToolSearch.findDisassembler.run' {})) (o : Options) : P o.plan := by
  refine hP.withWorkdir o fun workdir => hP.bind (hP.resolve hfind ..) fun result => ?_
  cases result with
  | error e => exact hP.pure _
  | ok settings => exact hP.pure _

/-! ## A run -/

end HostM.Closed

/-- The file that a question may have written. -/
def Question.Writes (file : Path) : Question → Prop
  | .store repo _ => file = Progress.path repo
  | .applySetting config _ _ => file = config
  | _ => False

/-- What a program prints on these arguments is for the operator alone: on those of a clone or a pull, and on a single
word, which is a script or asks for the version. -/
def isForOperator : List String → Bool
  | [_] => true
  | arg :: _ => arg == "clone" || arg == "pull"
  | [] => false

namespace HostM.Closed

variable {P : {α : Type} → HostM α → Prop}

/-- Every question of a run, from the programs that it has started and the files that it has written. -/
theorem answer (hP : Closed @P) (havailable : P (HostM.isAvailable "git"))
    (hask : ∀ args repo, isForOperator args = false → P (execute "git" args (some repo)))
    (hstream : ∀ name args cwd, isForOperator args = true → P (HostM.stream name args cwd)) (plan : Plan) (quiet : Bool)
    (q : Question) (hwrite : ∀ file text, q.Writes file → P (writeText file text)) :
    P ((Collaborators.ofPlan plan quiet).answer q) := by
  cases q with
  | ensureAvailable => exact hP.ensureAvailable havailable
  | clone url dest => exact hP.order (hstream _ _ _ rfl)
  | checkout repo revision => exact hP.checkout (hask _ _ rfl) (hask _ _ rfl)
  | pull repo => exact hP.pull (hask _ _ rfl) fun _ => hstream _ _ _ rfl
  | isWorkTree repo => exact hP.isWorkTree (hask _ _ rfl)
  | headRevision repo => exact hP.headRevision (hask _ _ rfl)
  | resolveRevision repo revision => exact hP.resolveRevision (hask _ _ rfl)
  | setupEnvironment => exact hP.setup (hstream _ _ _ rfl)
  | setupPackages => exact hP.setup (hstream _ _ _ rfl)
  | present path => exact hP.present path
  | load checkout => exact hP.load checkout
  | store checkout progress => exact hP.save (fun text => hwrite _ text rfl) progress
  | applySetting file key tool => exact hP.apply (fun text => hwrite _ text rfl) key tool
  | now => exact hP.now
  | log level message => exact hP.log ..
  | banner message => exact hP.banner quiet message

theorem carryOut (hP : Closed @P) {plan : Plan} {quiet : Bool}
    (hanswer : ∀ q, P ((Collaborators.ofPlan plan quiet).answer q)) : P (plan.carryOut quiet) := by
  rw [Plan.carryOut, ← Procedure.hold_run]
  exact hP.hold hanswer _

/-! ## The commands -/

theorem printGuidance (hP : Closed @P) (hprint : ∀ s, P (HostM.print s)) (g : Guidance) : P g.print := by
  refine hP.bind (hprint _) fun _ => ?_
  cases g.applied with
  | some path => exact hP.bind (hP.paint ..) fun _ => hprint _
  | none =>
    refine hP.bind (hP.paint ..) fun _ => hP.bind (hprint _) fun _ => hP.bind (hprint _) fun _ => ?_
    refine hP.bind (hprint _) fun _ => hP.bind (hP.paint ..) fun _ => hP.bind (hprint _) fun _ => ?_
    cases g.suggested with
    | none => exact hP.pure _
    | some path => exact hP.bind (hP.paint ..) fun _ => hprint _

theorem printStage (hP : Closed @P) (hprint : ∀ s, P (HostM.print s)) (record : StageRecord) : P record.print := by
  refine hP.bind (hP.paint ..) fun _ => ?_
  cases record.note with
  | none => exact hP.bind (hP.pure _) fun _ => hprint _
  | some text => exact hP.bind (hP.paint ..) fun _ => hP.bind (hP.pure _) fun _ => hprint _

theorem printReport (hP : Closed @P) (hprint : ∀ s, P (HostM.print s)) (r : Report) : P r.print := by
  have hstages : ∀ {x : HostM Unit}, (r.guidance = none → x = Pure.pure ()) →
      (∀ guidance, r.guidance = some guidance → x = guidance.print) →
      P (do HostM.printLine ""; r.stages.forM StageRecord.print; x) := by
    intro x hnone hsome
    refine hP.bind (hprint _) fun _ => hP.bind (hP.forM (hP.printStage hprint) _) fun _ => ?_
    cases hguidance : r.guidance with
    | none => rw [hnone hguidance]; exact hP.pure _
    | some guidance => rw [hsome guidance hguidance]; exact hP.printGuidance hprint guidance
  refine hP.bind (hprint _) fun _ => hP.bind (hprint _) fun _ => hP.bind (hprint _) fun _ => ?_
  cases r.revision with
  | none =>
    cases r.head with
    | none => exact hstages (fun h => by rw [h]) fun _ h => by rw [h]
    | some head => exact hP.bind (hprint _) fun _ => hstages (fun h => by rw [h]) fun _ h => by rw [h]
  | some revision =>
    refine hP.bind (hprint _) fun _ => ?_
    cases r.head with
    | none => exact hstages (fun h => by rw [h]) fun _ h => by rw [h]
    | some head => exact hP.bind (hprint _) fun _ => hstages (fun h => by rw [h]) fun _ h => by rw [h]

theorem printStatus (hP : Closed @P) (hprint : ∀ s, P (HostM.print s)) (s : Status) : P s.print := by
  refine hP.bind (hprint _) fun _ => hP.bind (hprint _) fun _ => hP.bind (hprint _) fun _ => ?_
  refine hP.bind (hprint _) fun _ => hP.bind (hprint _) fun _ => hP.bind (hprint _) fun _ => ?_
  refine hP.bind (hP.forM (fun _ => hprint _) _) fun _ => ?_
  refine hP.bind (hP.forM (fun _ => hP.bind (hP.paint ..) fun _ => hprint _) _) fun _ => ?_
  exact hP.bind (hprint _) fun _ => hP.bind (hP.forM (fun _ => hprint _) _) fun _ => hprint _

theorem runMain (hP : Closed @P) (hprint : ∀ s, P (HostM.print s)) {o : Options} (hplan : P o.plan)
    (hcarry : ∀ plan : Plan, P (plan.carryOut o.quiet)) : P (Command.runMain o) := by
  refine hP.bind hplan fun planned => ?_
  cases planned with
  | error failure => exact hP.pure _
  | ok plan =>
    refine hP.bind (hcarry plan) fun out => ite _ (fun _ => hP.map (hP.printJson hprint _) _) fun _ => ?_
    exact ite _ (fun _ => hP.bind (hP.printReport hprint out.2) fun _ => hP.pure _) fun _ => hP.pure _

theorem guideMain (hP : Closed @P) (hprint : ∀ s, P (HostM.print s))
    (hfind : P (ToolSearch.findDisassembler.run' {})) (o : Options) : P (Command.guideMain o) := by
  refine hP.withWorkdir o fun workdir => hP.bind (hP.resolve hfind ..) fun result => ?_
  cases result with
  | error e => exact hP.pure _
  | ok settings =>
    have hguidance : P (settings.guidance workdir) := by
      unfold Settings.guidance
      cases settings.disassembler.path with
      | some path => exact hP.bind (hP.pure _) fun _ => hP.pure _
      | none => exact hP.bind hfind fun _ => hP.pure _
    refine hP.bind hguidance fun guidance => ite _ (fun _ => hP.printJson hprint _) fun _ => ?_
    refine hP.bind (hP.printGuidance hprint guidance) fun _ => ?_
    have hline : P (do
        let line ← HostM.paint .cyan "fiber-bootstrap --resume --disassembler /path/to/addr2line"
        HostM.printLine s!"   Or let the bootstrapper write it: {line}"
        return (.ok () : Except Failure Unit)) :=
      hP.bind (hP.paint ..) fun _ => hP.bind (hprint _) fun _ => hP.pure _
    exact ite _ (fun _ => hP.bind (hprint _) fun _ => hline) fun _ => hline

theorem survey (hP : Closed @P) {repo : Path} (hask : ∀ more, P (execute "git" ("rev-parse" :: more) (some repo))) :
    P (Status.survey (m := HostM) (Git.sourceControl "git") repo) := by
  have hhead : ∀ there isTree : Bool, P (do
      let head ← if isTree then Git.headRevision "git" repo else Pure.pure none
      return (there, isTree, head)) := by
    intro there isTree
    refine ite _ (fun _ => ?_) fun _ => hP.bind (hP.pure _) fun _ => hP.pure _
    exact hP.bind (hP.headRevision (hask _)) fun _ => hP.pure _
  refine hP.bind (hP.present _) fun there => ite _ (fun _ => ?_) fun _ => ?_
  · exact hP.bind (hP.isWorkTree (hask _)) fun isTree => hhead there isTree
  · exact hP.bind (hP.pure _) fun isTree => hhead there isTree

theorem pinMatchesHead (hP : Closed @P) {repo : Path}
    (hask : ∀ more, P (execute "git" ("rev-parse" :: more) (some repo))) (policy : SyncPolicy)
    (head pin : Option String) : P (Bringup.pinMatchesHead (Git.sourceControl "git") repo policy head pin) := by
  refine ite _ (fun _ => hP.pure _) fun _ => ?_
  cases head with
  | none => exact hP.pure _
  | some head =>
    cases pin with
    | none => exact hP.pure _
    | some pin => exact hP.map (hP.resolveRevision (hask _)) _

theorem statusMain (hP : Closed @P) (hprint : ∀ s, P (HostM.print s))
    (hask : ∀ more repo, P (execute "git" ("rev-parse" :: more) (some repo)))
    (hprobe : ∀ tool, P (ToolSearch.probeVersion tool)) (o : Options) : P (Command.statusMain o) := by
  have hfound : ∀ settings workdir, P (Status.ofSettings (m := HostM) (Git.sourceControl "git") settings workdir) := by
    intro settings workdir
    refine hP.bind (hP.survey fun _ => hask _ _) fun seen => ?_
    refine hP.bind (hP.pinMatchesHead (fun _ => hask _ _) _ _ _) fun _ => hP.bind (hP.load _) fun _ => ?_
    exact hP.map (hP.detectRequired hprobe _) _
  have hstatus : P (o.status (m := HostM) (Git.sourceControl "git")) := by
    refine hP.withWorkdir o fun workdir => hP.bind (hP.settings o workdir) fun result => ?_
    cases result with
    | error e => exact hP.pure _
    | ok settings => exact hP.map (hfound settings workdir) _
  refine hP.bind hstatus fun result => ?_
  cases result with
  | error e => exact hP.pure _
  | ok found =>
    refine ite _ (fun _ => hP.printJson hprint _) fun _ => ?_
    exact hP.bind (hP.printStatus hprint found) fun _ => hP.pure _

end HostM.Closed

end Bringup
