import Bringup.Host.Process
import Bringup.Procedure.Collaborators

/-!
Source control by the `git` program.
-/

namespace Bringup.Git

set_option autoImplicit false

/-- The name under which source control is logged. -/
def target : String := "fiber_bootstrap::bootstrap::source"

/-- The program could not be started. -/
def notStarted (program : String) (e : IoError) : CommandFailure :=
  ⟨s!"failed to run {program}: {e.message}", none⟩

/-- The exit code of a status. -/
def codeOf (status : ExitStatus) : Option Int := status.code?.map Int.ofNat

/-- The trimmed output of a command in a repository. -/
def ask (program : String) (repo : Path) (args : List String) : HostM (Except CommandFailure String) := do
  match ← HostM.capture program args (some repo) with
  | .error e => return .error (notStarted program e)
  | .ok output =>
    if output.status.success then return .ok (Text.trim (Text.Utf8.decodeLossy output.stdout))
    else return .error ⟨output.failureMessage, codeOf output.status⟩

/-- A command that the operator watches. -/
def order (program : String) (cwd : Option Path) (args : List String) :
    HostM (Except CommandFailure Unit) := do
  match ← HostM.stream program args cwd with
  | .error e => return .error (notStarted program e)
  | .ok status =>
    if status.success then return .ok ()
    else
      let verb := args.headD ""
      return .error ⟨s!"{program} {verb} exited with {status.describe}", codeOf status⟩

/-- The arguments that look up the commit of a revision. -/
def resolveArgs (revision : String) : List String :=
  ["rev-parse", "--verify", "--quiet", revision ++ "^\x7bcommit\x7d"]

/-- The program can be used. -/
def ensureAvailable (program : String) : HostM (Except CommandFailure Unit) := do
  if ← HostM.isAvailable program then return .ok ()
  else return .error ⟨s!"{program} is not installed or not in PATH", none⟩

/-- A repository is cloned. -/
def clone (program url : String) (dest : Path) : HostM (Except CommandFailure Unit) :=
  order program none ["clone", url, dest.text]

/-- A revision is checked out; it has to name a commit. -/
def checkout (program : String) (repo : Path) (revision : String) :
    HostM (Except CommandFailure Unit) := do
  match ← ask program repo (resolveArgs revision) with
  | .error e =>
    return .error { e with message := s!"revision not found in cloned history ({e.message})" }
  | .ok _ =>
    match ← ask program repo ["-c", "advice.detachedHead=false", "checkout", "--quiet", revision] with
    | .error e => return .error e
    | .ok _ => return .ok ()

/-- What follows the remote's name in the name of a remote branch. -/
def branchOf? (full : String) : Option String :=
  let cs := full.toList
  if "origin/".toList.isPrefixOf cs then some (String.ofList (cs.drop "origin/".length)) else none

/-- The name of the remote's default branch. -/
def defaultBranch? (program : String) (repo : Path) : HostM (Option String) := do
  match ← ask program repo ["symbolic-ref", "--short", "refs/remotes/origin/HEAD"] with
  | .error _ => return none
  | .ok full => return branchOf? full

/-- The remote's default branch is pulled. -/
def pull (program : String) (repo : Path) : HostM (Except CommandFailure Unit) := do
  let args := ["pull", "--no-rebase", "--no-edit"]
  match ← defaultBranch? program repo with
  | some branch =>
    HostM.log .debug target s!"Pulling origin/{branch} into {repo.text}"
    order program (some repo) (args ++ ["origin", branch])
  | none =>
    HostM.log .warn target "origin/HEAD is not set, pulling the current branch's upstream"
    order program (some repo) args

/-- A directory is a work tree. -/
def isWorkTree (program : String) (repo : Path) : HostM Bool := do
  if ← HostM.present (repo.child ".git") then
    match ← ask program repo ["rev-parse", "--is-inside-work-tree"] with
    | .ok answer => return answer == "true"
    | .error _ => return false
  else return false

/-- The commit that is checked out. -/
def headRevision (program : String) (repo : Path) : HostM (Option String) := do
  return (← ask program repo ["rev-parse", "HEAD"]).toOption

/-- The full name of the commit that a revision stands for. -/
def resolveRevision (program : String) (repo : Path) (revision : String) : HostM (Option String) := do
  return (← ask program repo (resolveArgs revision)).toOption.filter fun id => !id.isEmpty

/-- Source control by a program of a name. -/
def sourceControl (program : String) : SourceControl HostM where
  ensureAvailable := ensureAvailable program
  clone := clone program
  checkout := checkout program
  pull := pull program
  isWorkTree := isWorkTree program
  headRevision := headRevision program
  resolveRevision := resolveRevision program

end Bringup.Git
