import Bringup.Instant
import Bringup.Stage

/-!
The record of progress that is kept inside a checkout, so that a later run can go on from it.
-/

namespace Bringup

set_option autoImplicit false

/-- What earlier runs have completed. -/
structure Progress where
  /-- What the runs aimed at: the pinned revision, perhaps followed by `+sync`, or `latest`. -/
  target : String
  completed : List Stage
  updatedAt : Instant
deriving DecidableEq, Repr, Inhabited

namespace Progress

/-- A record of nothing yet. -/
def fresh (target : String) (now : Instant) : Progress := ⟨target, [], now⟩

/-- The stage has been completed. -/
def isComplete (p : Progress) (stage : Stage) : Bool := p.completed.contains stage

/-- The record with a stage completed, once, at a time. -/
def mark (p : Progress) (stage : Stage) (now : Instant) : Progress :=
  { p with
    completed := if p.isComplete stage then p.completed else p.completed ++ [stage]
    updatedAt := now }

/-- The record as JSON. -/
def json (p : Progress) : Json :=
  .obj [("target", .str p.target), ("completed", .arr (p.completed.map Stage.json)),
    ("updated_at", .str p.updatedAt.text)]

/-- The text that is stored. -/
def text (p : Progress) : String := p.json.pretty

end Progress

end Bringup
