import Bringup.Failure.Kind
import Bringup.Json.Value

/-!
The stages of the procedure. Each follows the one before it; a failure ends them.
-/

namespace Bringup

set_option autoImplicit false

/-- How far a run has come. -/
inductive Stage where
  | start
  | cloned
  | pinned
  | synced
  | envReady
  | pkgsReady
  | configured
  | done
  | failed (kind : FailureKind)
deriving DecidableEq, Repr, Inhabited

namespace Stage

/-- The stages between the start and the end, in order. -/
def sequence : List Stage := [cloned, pinned, synced, envReady, pkgsReady, configured]

/-- The stages that stand for themselves, in order. -/
def plain : List Stage := start :: sequence ++ [done]

/-- The spelling in records. -/
def text : Stage → String
  | start => "start"
  | cloned => "cloned"
  | pinned => "pinned"
  | synced => "synced"
  | envReady => "env_ready"
  | pkgsReady => "pkgs_ready"
  | configured => "configured"
  | done => "done"
  | failed _ => "failed"

/-- The name that is shown. -/
def name : Stage → String
  | start => "START"
  | cloned => "CLONED"
  | pinned => "PINNED"
  | synced => "SYNCED"
  | envReady => "ENV_READY"
  | pkgsReady => "PKGS_READY"
  | configured => "CONFIGURED"
  | done => "DONE"
  | failed kind => s!"FAILED({kind.name})"

/-- The stage as JSON: its spelling, and for a failure an object with the kind. -/
def json : Stage → Json
  | failed kind => .obj [("failed", .str kind.text)]
  | stage => .str stage.text

/-- The place in the sequence. -/
def position? (stage : Stage) : Option Nat := sequence.findIdx? (· == stage)

end Stage

end Bringup
