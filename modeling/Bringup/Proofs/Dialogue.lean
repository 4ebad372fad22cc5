import Bringup.Procedure

/-!
# A run as a dialogue

A run asks its collaborators one question after another and goes on with what they answer.

* `Question`, `Exchange`: what is asked, and a question with its answer. An exchange without an answer is
  the last one of a run that was broken off.
* `Dialogue`: a computation that does nothing but ask.
* `Collaborators.asked`: collaborators whose every operation is a question.
* `Dialogue.hold`: a dialogue with given collaborators. A run with them is the dialogue of the run, held
  with them (`hold_run`), so that what holds of every course of the dialogue holds of every run.
-/

namespace Bringup

set_option autoImplicit false

/-- An operation of a collaborator, with what it is given. -/
inductive Question where
  | ensureAvailable
  | clone (url : String) (dest : Path)
  | checkout (repo : Path) (revision : String)
  | pull (repo : Path)
  | isWorkTree (repo : Path)
  | headRevision (repo : Path)
  | resolveRevision (repo : Path) (revision : String)
  | setupEnvironment
  | setupPackages
  | present (path : Path)
  | load (checkout : Path)
  | store (checkout : Path) (progress : Progress)
  | applySetting (file : Path) (key : String) (tool : Path)
  | now
  | log (level : LogLevel) (message : String)
  | banner (message : String)

/-- What a question is answered with. -/
@[reducible] def Question.Answer : Question → Type
  | ensureAvailable => Except CommandFailure Unit
  | clone _ _ => Except CommandFailure Unit
  | checkout _ _ => Except CommandFailure Unit
  | pull _ => Except CommandFailure Unit
  | isWorkTree _ => Bool
  | headRevision _ => Option String
  | resolveRevision _ _ => Option String
  | setupEnvironment => Except ProvisionFailure Unit
  | setupPackages => Except ProvisionFailure Unit
  | present _ => Bool
  | load _ => Option Progress
  | store _ _ => Except IoError Unit
  | applySetting _ _ _ => Except ConfigureFailure Bool
  | now => Instant
  | log _ _ => Unit
  | banner _ => Unit

/-- A question and its answer; none where the run was broken off. -/
structure Exchange where
  question : Question
  answer : Option question.Answer

/-- A computation that asks questions and ends. -/
inductive Dialogue (α : Type) where
  | ends (a : α)
  | ask (q : Question) (next : q.Answer → Dialogue α)

namespace Dialogue

variable {α β γ : Type}

/-- A dialogue that goes on after its end. -/
protected def bind : Dialogue α → (α → Dialogue β) → Dialogue β
  | ends a, f => f a
  | ask q next, f => ask q fun answer => (next answer).bind f

instance : Monad Dialogue where
  pure := ends
  bind := Dialogue.bind

theorem ends_bind (a : α) (f : α → Dialogue β) : (ends a >>= f) = f a := rfl

theorem ask_bind (q : Question) (next : q.Answer → Dialogue α) (f : α → Dialogue β) :
    (ask q next >>= f) = ask q fun answer => next answer >>= f := rfl

theorem id_map_dialogue (d : Dialogue α) : id <$> d = d := by
  induction d with
  | ends a => rfl
  | ask q next ih => exact congrArg (ask q) (funext ih)

theorem bind_assoc_dialogue (d : Dialogue α) (f : α → Dialogue β) (g : β → Dialogue γ) :
    (d >>= f >>= g) = d >>= fun a => f a >>= g := by
  induction d with
  | ends a => rfl
  | ask q next ih => exact congrArg (ask q) (funext ih)

instance : LawfulMonad Dialogue :=
  LawfulMonad.mk' Dialogue id_map_dialogue (fun _ _ => rfl) bind_assoc_dialogue

end Dialogue

variable {m : Type → Type} [Monad m]

/-- The operation that answers a question. -/
def Collaborators.answer (c : Collaborators m) : (q : Question) → m q.Answer
  | .ensureAvailable => c.source.ensureAvailable
  | .clone url dest => c.source.clone url dest
  | .checkout repo revision => c.source.checkout repo revision
  | .pull repo => c.source.pull repo
  | .isWorkTree repo => c.source.isWorkTree repo
  | .headRevision repo => c.source.headRevision repo
  | .resolveRevision repo revision => c.source.resolveRevision repo revision
  | .setupEnvironment => c.environment.setup
  | .setupPackages => c.packages.setup
  | .present path => c.workspace.present path
  | .load checkout => c.workspace.load checkout
  | .store checkout progress => c.workspace.store checkout progress
  | .applySetting file key tool => c.workspace.applySetting file key tool
  | .now => c.workspace.now
  | .log level message => c.workspace.log level message
  | .banner message => c.workspace.banner message

/-- Collaborators that are given by their answers. -/
def Collaborators.ofAnswers (environment packages : String) (answer : (q : Question) → m q.Answer) :
    Collaborators m where
  source :=
    { ensureAvailable := answer .ensureAvailable
      clone := fun url dest => answer (.clone url dest)
      checkout := fun repo revision => answer (.checkout repo revision)
      pull := fun repo => answer (.pull repo)
      isWorkTree := fun repo => answer (.isWorkTree repo)
      headRevision := fun repo => answer (.headRevision repo)
      resolveRevision := fun repo revision => answer (.resolveRevision repo revision) }
  environment := { name := environment, setup := answer .setupEnvironment }
  packages := { name := packages, setup := answer .setupPackages }
  workspace :=
    { present := fun path => answer (.present path)
      load := fun checkout => answer (.load checkout)
      store := fun checkout progress => answer (.store checkout progress)
      applySetting := fun file key tool => answer (.applySetting file key tool)
      now := answer .now
      log := fun level message => answer (.log level message)
      banner := fun message => answer (.banner message) }

omit [Monad m] in
theorem Collaborators.answer_ofAnswers (environment packages : String)
    (answer : (q : Question) → m q.Answer) (q : Question) :
    (ofAnswers environment packages answer).answer q = answer q := by
  cases q <;> rfl

/-- Collaborators whose every operation is a question; the setup steps have names. -/
def Collaborators.asked (environment packages : String) : Collaborators Dialogue :=
  ofAnswers environment packages fun q => .ask q .ends

/-! ## Parts of a run -/

namespace Procedure

variable {α β : Type}

omit [Monad m] in
theorem Step.ext {x y : Step m α} (h : ∀ r, x.run.run r = y.run.run r) : x = y :=
  ExceptT.ext (StateT.ext h)

theorem run_bind (x : Step m α) (f : α → Step m β) (r : Report) :
    (x >>= f).run.run r = x.run.run r >>= fun out =>
      match out with
      | (.ok a, r) => (f a).run.run r
      | (.error e, r) => pure (.error e, r) := by
  simp only [ExceptT.run_bind, StateT.run_bind]
  refine congrArg _ (funext fun out => ?_)
  obtain ⟨result, r⟩ := out
  cases result with
  | ok a => rfl
  | error e => rfl

variable [LawfulMonad m]

theorem run_get (r : Report) : (get : Step m Report).run.run r = pure (.ok r, r) := by
  simp only [get, getThe, MonadStateOf.get, liftM, monadLift, MonadLift.monadLift, ExceptT.run_lift,
    StateT.run_map]
  simp [StateT.run, StateT.get]

theorem run_set (r' r : Report) : (set r' : Step m PUnit).run.run r = pure (.ok ⟨⟩, r') := by
  simp only [set, MonadStateOf.set, liftM, monadLift, MonadLift.monadLift, ExceptT.run_lift,
    StateT.run_map]
  exact map_pure _ (PUnit.unit, r')

theorem run_modify (f : Report → Report) (r : Report) :
    (modify f : Step m PUnit).run.run r = pure (.ok ⟨⟩, f r) := by
  change (modifyGet (fun s => (⟨⟩, f s)) : Step m PUnit).run.run r = _
  simp only [modifyGet, MonadStateOf.modifyGet, monadLift, MonadLift.monadLift,
    ExceptT.run_lift, StateT.run_map]
  simp [StateT.run, StateT.modifyGet]

theorem run_call (op : m α) (r : Report) :
    (call op).run.run r = op >>= fun a => pure (.ok a, r) := by
  simp only [call, ExceptT.run_lift, StateT.run_map, StateT.run_lift]
  simp

end Procedure

/-! ## Holding a dialogue -/

/-- A dialogue with given collaborators. -/
def Dialogue.hold {α : Type} (c : Collaborators m) : Dialogue α → m α
  | ends a => pure a
  | ask q next => do (next (← c.answer q)).hold c

namespace Procedure

open Dialogue

variable {α β : Type}

/-- A part of a run that asks, as a part of a run with given collaborators. -/
def Step.hold (c : Collaborators m) (x : Step Dialogue α) : Step m α :=
  ExceptT.mk fun r => Dialogue.hold c (x.run.run r)

theorem run_hold (c : Collaborators m) (x : Step Dialogue α) (r : Report) :
    (Step.hold c x).run.run r = (x.run.run r).hold c := rfl

theorem Step.hold_ite (c : Collaborators m) (p : Prop) [Decidable p] (x y : Step Dialogue α) :
    Step.hold c (if p then x else y) = if p then Step.hold c x else Step.hold c y := by
  split <;> rfl

variable [LawfulMonad m] (c : Collaborators m)

theorem hold_bind (d : Dialogue α) (f : α → Dialogue β) :
    (d >>= f).hold c = d.hold c >>= fun a => (f a).hold c := by
  induction d with
  | ends a => rw [ends_bind, Dialogue.hold, pure_bind]
  | ask q next ih =>
    rw [ask_bind, Dialogue.hold, Dialogue.hold, bind_assoc]
    exact congrArg _ (funext ih)

theorem hold_ask (q : Question) : (ask q ends).hold c = c.answer q := by
  simp only [Dialogue.hold, bind_pure]

theorem Step.hold_bind (x : Step Dialogue α) (f : α → Step Dialogue β) :
    Step.hold c (x >>= f) = Step.hold c x >>= fun a => Step.hold c (f a) := by
  apply Step.ext
  intro r
  rw [run_hold, run_bind, run_bind, run_hold, Procedure.hold_bind]
  refine congrArg _ (funext fun out => ?_)
  obtain ⟨result, r⟩ := out
  cases result with
  | ok a => rfl
  | error e => rfl

theorem Step.hold_get : Step.hold c (get : Step Dialogue Report) = get := by
  apply Step.ext
  intro r
  rw [run_hold, run_get, run_get]
  rfl

theorem Step.hold_set (r' : Report) : Step.hold c (set r' : Step Dialogue PUnit) = set r' := by
  apply Step.ext
  intro r
  rw [run_hold, run_set, run_set]
  rfl

theorem Step.hold_modify (f : Report → Report) :
    Step.hold c (modify f : Step Dialogue PUnit) = modify f := by
  apply Step.ext
  intro r
  rw [run_hold, run_modify, run_modify]
  rfl

theorem Step.hold_call (d : Dialogue α) : Step.hold c (call d) = call (d.hold c) := by
  apply Step.ext
  intro r
  rw [run_hold, run_call, run_call, Procedure.hold_bind]
  rfl

theorem Step.hold_attempt {ε : Type} (wrap : ε → Failure) (d : Dialogue (Except ε α)) :
    Step.hold c (attempt wrap d) = attempt wrap (d.hold c) := by
  rw [attempt, attempt, Step.hold_bind, Step.hold_call]
  refine congrArg _ (funext fun result => ?_)
  cases result with
  | ok a => rfl
  | error e => rfl

/-! ## The stages -/

/-- Collaborators that hold the dialogues of others. -/
def held (k : Collaborators Dialogue) : Collaborators m where
  source :=
    { ensureAvailable := k.source.ensureAvailable.hold c
      clone := fun url dest => (k.source.clone url dest).hold c
      checkout := fun repo revision => (k.source.checkout repo revision).hold c
      pull := fun repo => (k.source.pull repo).hold c
      isWorkTree := fun repo => (k.source.isWorkTree repo).hold c
      headRevision := fun repo => (k.source.headRevision repo).hold c
      resolveRevision := fun repo revision => (k.source.resolveRevision repo revision).hold c }
  environment := { name := k.environment.name, setup := k.environment.setup.hold c }
  packages := { name := k.packages.name, setup := k.packages.setup.hold c }
  workspace :=
    { present := fun path => (k.workspace.present path).hold c
      load := fun checkout => (k.workspace.load checkout).hold c
      store := fun checkout progress => (k.workspace.store checkout progress).hold c
      applySetting := fun file key tool => (k.workspace.applySetting file key tool).hold c
      now := k.workspace.now.hold c
      log := fun level message => (k.workspace.log level message).hold c
      banner := fun message => (k.workspace.banner message).hold c }

variable (k : Collaborators Dialogue)

theorem hold_reach (stage : Stage) (outcome : Outcome) (note : Option String) :
    Step.hold c (reach k stage outcome note) = reach (held c k) stage outcome note := by
  simp only [reach, held, Step.hold_bind, Step.hold_get, Step.hold_call, Step.hold_set]

theorem hold_complete (plan : Plan) (progress : Progress) (stage : Stage) :
    Step.hold c (complete k plan progress stage) = complete (held c k) plan progress stage := by
  simp only [complete, held, Step.hold_bind, Step.hold_call, Step.hold_attempt]
  rfl

theorem hold_startOver (plan : Plan) :
    Step.hold c (startOver k plan) = startOver (held c k) plan := by
  simp only [startOver, held, Step.hold_bind, Step.hold_call]
  rfl

theorem hold_takeUp (plan : Plan) : Step.hold c (takeUp k plan) = takeUp (held c k) plan := by
  simp only [takeUp, Step.hold_bind, Step.hold_call]
  refine congrArg _ (funext fun loaded => ?_)
  cases loaded with
  | none => exact hold_startOver c k plan
  | some progress =>
    simp only [Step.hold_ite, Step.hold_bind, Step.hold_call, hold_startOver]
    rfl

theorem hold_acquire (plan : Plan) : Step.hold c (acquire k plan) = acquire (held c k) plan := by
  simp only [acquire, Step.hold_bind, Step.hold_ite, Step.hold_call, Step.hold_attempt,
    hold_reach, hold_takeUp, hold_startOver]
  rfl

theorem hold_pin (plan : Plan) (progress : Progress) :
    Step.hold c (pin k plan progress) = pin (held c k) plan progress := by
  unfold pin
  cases pinnedRevision plan with
  | none =>
    simp only [Step.hold_bind, hold_reach]
    rfl
  | some revision =>
    simp only [Step.hold_bind, Step.hold_ite, Step.hold_call, Step.hold_attempt,
      hold_reach, hold_complete]
    rfl

theorem hold_sync (plan : Plan) (progress : Progress) :
    Step.hold c (sync k plan progress) = sync (held c k) plan progress := by
  simp only [sync, Step.hold_bind, Step.hold_ite, Step.hold_call, Step.hold_attempt,
    hold_reach, hold_complete]
  rfl

theorem hold_provision (plan : Plan) (progress : Progress) (p : Provisioner Dialogue) (stage : Stage)
    (wrap : ProvisionFailure → Failure) (title : String) :
    Step.hold c (provision k plan progress p stage wrap title) =
      provision (held c k) plan progress ⟨p.name, p.setup.hold c⟩ stage wrap title := by
  simp only [provision, Step.hold_bind, Step.hold_ite, Step.hold_call, Step.hold_attempt, hold_reach, hold_complete]
  rfl

theorem hold_guide (plan : Plan) (applied suggested : Option Path) :
    Step.hold c (guide plan applied suggested) = guide plan applied suggested :=
  Step.hold_modify c _

theorem hold_configure (plan : Plan) (progress : Progress) :
    Step.hold c (configure k plan progress) = configure (held c k) plan progress := by
  unfold configure
  cases plan.disassembler with
  | none => simp only [Step.hold_bind, hold_reach, hold_guide]
  | some tool =>
    simp only [Step.hold_bind, Step.hold_call]
    refine congrArg _ (funext fun result => ?_)
    cases result with
    | ok changed =>
      simp only [Step.hold_bind, hold_reach, hold_guide, hold_complete]
      rfl
    | error failure =>
      simp only [Step.hold_bind, Step.hold_ite, Step.hold_call, hold_reach, hold_guide]
      rfl

/-- The stages before the tool is configured. -/
def prepare (c : Collaborators m) (plan : Plan) : Step m Progress := do
  attempt .acquisition c.source.ensureAvailable
  let progress ← acquire c plan
  let progress ← complete c plan progress .cloned
  let progress ← pin c plan progress
  let progress ← sync c plan progress
  let progress ← provision c plan progress c.environment .envReady .environmentSetup
    "Setting up the angr analysis environment"
  provision c plan progress c.packages .pkgsReady .packageInstall "Installing supporting packages"

theorem stages_eq (plan : Plan) : stages c plan = prepare c plan >>= configure c plan := by
  simp only [stages, prepare, bind_assoc]

theorem hold_prepare (plan : Plan) : Step.hold c (prepare k plan) = prepare (held c k) plan := by
  simp only [prepare, Step.hold_bind, Step.hold_attempt, hold_acquire, hold_complete, hold_pin, hold_sync,
    hold_provision]
  rfl

theorem hold_stages (plan : Plan) : Step.hold c (stages k plan) = stages (held c k) plan := by
  rw [stages_eq, stages_eq, Step.hold_bind, hold_prepare]
  exact congrArg _ (funext fun progress => hold_configure c k plan progress)

/-- The questions that stand for given collaborators. -/
def questions : Collaborators Dialogue := Collaborators.asked c.environment.name c.packages.name

theorem held_questions : held c (questions c) = c := by
  have h : (fun q => (ask q ends).hold c) = c.answer := funext (hold_ask c)
  calc held c (questions c)
      = .ofAnswers c.environment.name c.packages.name (fun q => (ask q ends).hold c) := rfl
    _ = .ofAnswers c.environment.name c.packages.name c.answer := by rw [h]
    _ = c := rfl

/-- A run with collaborators is the dialogue of the run, held with them. -/
theorem hold_run (plan : Plan) (report : Report) :
    (run (questions c) plan report).hold c = run c plan report := by
  rw [run, run, Procedure.hold_bind, ← run_hold, hold_stages, held_questions]
  refine congrArg _ (funext fun out => ?_)
  obtain ⟨result, r⟩ := out
  cases result with
  | ok a =>
    have hhead : ((questions c).source.headRevision plan.checkout).hold c =
        c.source.headRevision plan.checkout := hold_ask c (.headRevision plan.checkout)
    have hlog : ((questions c).workspace.log .debug (transition r .done .ran)).hold c =
        c.workspace.log .debug (transition r .done .ran) := hold_ask c (.log .debug _)
    simp only [Procedure.hold_bind, hhead, hlog]
    rfl
  | error f => rfl

end Procedure

end Bringup
