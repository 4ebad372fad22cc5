import Bringup.Procedure.Collaborators

/-!
Collaborators that keep a list of what they are asked for.
-/

namespace Bringup

set_option autoImplicit false

/-- An operation that a collaborator was asked for. -/
inductive Request where
  | ensureAvailable
  | clone (url : String) (dest : Path)
  | checkout (repo : Path) (revision : String)
  | pull (repo : Path)
  | isWorkTree (repo : Path)
  | headRevision (repo : Path)
  | resolveRevision (repo : Path) (revision : String)
  | setup (name : String)
deriving DecidableEq, Repr

variable {m : Type → Type} [Monad m]

/-- An operation that is noted before it is carried out. -/
def noted {α : Type} (request : Request) (op : m α) : StateT (List Request) m α := do
  modify (· ++ [request])
  StateT.lift op

/-- Source control that keeps a list of requests. -/
def SourceControl.traced (s : SourceControl m) : SourceControl (StateT (List Request) m) where
  ensureAvailable := noted .ensureAvailable s.ensureAvailable
  clone url dest := noted (.clone url dest) (s.clone url dest)
  checkout repo revision := noted (.checkout repo revision) (s.checkout repo revision)
  pull repo := noted (.pull repo) (s.pull repo)
  isWorkTree repo := noted (.isWorkTree repo) (s.isWorkTree repo)
  headRevision repo := noted (.headRevision repo) (s.headRevision repo)
  resolveRevision repo revision := noted (.resolveRevision repo revision) (s.resolveRevision repo revision)

/-- A setup step that keeps a list of requests. -/
def Provisioner.traced (p : Provisioner m) : Provisioner (StateT (List Request) m) where
  name := p.name
  setup := noted (.setup p.name) p.setup

/-- The surroundings of a run under tracing; nothing of theirs is noted. -/
def Workspace.traced (w : Workspace m) : Workspace (StateT (List Request) m) where
  present p := StateT.lift (w.present p)
  load p := StateT.lift (w.load p)
  store p progress := StateT.lift (w.store p progress)
  applySetting file key tool := StateT.lift (w.applySetting file key tool)
  now := StateT.lift w.now
  log level message := StateT.lift (w.log level message)
  banner message := StateT.lift (w.banner message)

/-- Collaborators that keep a list of requests. -/
def Collaborators.traced (c : Collaborators m) : Collaborators (StateT (List Request) m) where
  source := c.source.traced
  environment := c.environment.traced
  packages := c.packages.traced
  workspace := c.workspace.traced

end Bringup
