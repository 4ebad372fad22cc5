import Bringup.Settings

/-!
What the command line asks for.

* `Options`: the command and the nine options, after the environment has been looked at.
* `Options.applyTo`: settings with what the command line says in their place.
-/

namespace Bringup

set_option autoImplicit false

/-- The commands. -/
inductive Command where
  | run
  | status
  | guide
deriving DecidableEq, Repr, Inhabited

namespace Command

/-- The commands in the order in which they are listed to the user. -/
def all : List Command := [run, status, guide]

/-- The name on the command line. -/
def name : Command → String
  | run => "run"
  | status => "status"
  | guide => "guide"

/-- The first line of the help of a command. -/
def about : Command → String
  | run => "Run the full bootstrap procedure (default)"
  | status => "Show the progress recorded in an existing checkout and host tool availability"
  | guide => "Print the manual disassembler configuration instructions"

/-- The command with a name. -/
def ofName? (s : String) : Option Command := all.find? fun c => c.name == s

end Command

/-- What the command line asks for. -/
structure Options where
  /-- The command that was named; none stands for a run. -/
  given : Option Command := none
  config : Option Path := none
  workdir : Option Path := none
  revision : Option String := none
  sync : Option SyncPolicy := none
  resume : Bool := false
  disassembler : Option Path := none
  verbose : Nat := 0
  quiet : Bool := false
  json : Bool := false
deriving DecidableEq, Repr, Inhabited

/-- The two variables of the environment that stand in for options. -/
structure Variables where
  revision : Option String := none
  disassembler : Option String := none
deriving DecidableEq, Repr, Inhabited

namespace Options

/-- The command to carry out. -/
def command (o : Options) : Command := o.given.getD .run

/-- Settings with what the command line says in their place. -/
def applyTo (o : Options) (s : Settings) : Settings :=
  { s with
    source := { s.source with
      revision := o.revision.or s.source.revision
      syncPolicy := o.sync.getD s.source.syncPolicy
      rerunPolicy := if o.resume then .resume else s.source.rerunPolicy }
    disassembler := { s.disassembler with path := o.disassembler.or s.disassembler.path } }

end Options

end Bringup
