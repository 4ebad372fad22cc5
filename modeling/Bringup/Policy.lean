/-!
The two choices of policy: what to do about the remote's default branch, and what to do when the
checkout is there already.
-/

namespace Bringup

set_option autoImplicit false

/-- What to do about the remote's default branch after cloning. -/
inductive SyncPolicy where
  /-- The pinned revision is checked out and nothing is pulled. -/
  | pinned
  /-- The default branch is pulled and the pinned revision is not looked at. -/
  | latest
  /-- The pinned revision is checked out and the default branch is pulled on top of it. -/
  | pinThenSync
deriving DecidableEq, Repr, Inhabited

namespace SyncPolicy

/-- The policies in the order in which they are listed to the user. -/
def all : List SyncPolicy := [pinned, latest, pinThenSync]

/-- The spelling in settings and on the command line. -/
def text : SyncPolicy → String
  | pinned => "pinned"
  | latest => "latest"
  | pinThenSync => "pin-then-sync"

/-- The spelling in the status listing. -/
def title : SyncPolicy → String
  | pinned => "Pinned"
  | latest => "Latest"
  | pinThenSync => "PinThenSync"

/-- The policy with a spelling. -/
def ofText? (s : String) : Option SyncPolicy := all.find? fun p => p.text == s

theorem ofText?_text (p : SyncPolicy) : ofText? p.text = some p := by
  cases p <;> decide

end SyncPolicy

/-- What to do when the checkout directory exists. -/
inductive RerunPolicy where
  /-- Refuse to run. -/
  | fail
  /-- Go on where the last run stopped. -/
  | resume
deriving DecidableEq, Repr, Inhabited

namespace RerunPolicy

/-- The policies in the order in which they are listed to the user. -/
def all : List RerunPolicy := [fail, resume]

/-- The spelling in settings. -/
def text : RerunPolicy → String
  | fail => "fail"
  | resume => "resume"

/-- The policy with a spelling. -/
def ofText? (s : String) : Option RerunPolicy := all.find? fun p => p.text == s

theorem ofText?_text (p : RerunPolicy) : ofText? p.text = some p := by
  cases p <;> decide

end RerunPolicy

end Bringup
