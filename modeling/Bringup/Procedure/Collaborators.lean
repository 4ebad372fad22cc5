import Bringup.Failure
import Bringup.Host.Log
import Bringup.Plan
import Bringup.Progress

/-!
What the procedure needs from others, as records of operations over a monad.

* `SourceControl`: cloning, checking out, pulling and looking at a checkout.
* `Provisioner`: a setup step with a name.
* `Workspace`: the checkout's files, the clock, the log and the banners.
* `Collaborators`: all of these together.
-/

namespace Bringup

set_option autoImplicit false

/-- The operations of a version control system. -/
structure SourceControl (m : Type → Type) where
  /-- Fails when the system cannot be used on this host. -/
  ensureAvailable : m (Except CommandFailure Unit)
  clone : String → Path → m (Except CommandFailure Unit)
  /-- Fails when the revision is not in the history. -/
  checkout : Path → String → m (Except CommandFailure Unit)
  /-- Takes the remote's default branch into the checkout. -/
  pull : Path → m (Except CommandFailure Unit)
  isWorkTree : Path → m Bool
  headRevision : Path → m (Option String)
  /-- The full name of the commit that a revision stands for. -/
  resolveRevision : Path → String → m (Option String)

/-- A setup step. -/
structure Provisioner (m : Type → Type) where
  name : String
  setup : m (Except ProvisionFailure Unit)

/-- The surroundings of a run. -/
structure Workspace (m : Type → Type) where
  /-- A path leads to something. -/
  present : Path → m Bool
  /-- The progress that is recorded in a checkout. -/
  load : Path → m (Option Progress)
  /-- Progress is recorded in a checkout. -/
  store : Path → Progress → m (Except IoError Unit)
  /-- The path of the tool is written to a key of a file; tells whether that changed the file. -/
  applySetting : Path → String → Path → m (Except ConfigureFailure Bool)
  now : m Instant
  log : LogLevel → String → m Unit
  banner : String → m Unit

/-- Everything that the procedure works with. -/
structure Collaborators (m : Type → Type) where
  source : SourceControl m
  environment : Provisioner m
  packages : Provisioner m
  workspace : Workspace m

end Bringup
