import Bringup.Command.Run

/-!
The `status` command: how far a checkout has come, and which tools the host has.
-/

namespace Bringup

set_option autoImplicit false

/-- What the command tells. -/
structure Status where
  checkout : Path
  present : Bool
  workTree : Bool
  pinnedRevision : Option String
  syncPolicy : SyncPolicy
  head : Option String
  /-- The pinned revision is checked out; none when that cannot be told. -/
  atPinnedRevision : Option Bool
  completed : List Stage
  pending : List Stage
  tools : List (String × ToolStatus)

/-- The commit that is checked out is the one that the pin stands for. None when the policy does not look
at the pin, or when one of the two is not known. -/
def pinMatchesHead {m : Type → Type} [Monad m] (source : SourceControl m) (checkout : Path)
    (policy : SyncPolicy) (head pin : Option String) : m (Option Bool) := do
  if policy = .latest then return none
  match head, pin with
  | some head, some pin => do
    let pinned ← source.resolveRevision checkout pin
    return pinned.map (· == head)
  | _, _ => return none

/-- What is known about a tool, as JSON. -/
def ToolStatus.json (t : ToolStatus) : Except Json.Error Json := do
  let path ← t.path.mapM Path.json
  return .obj [("available", .bool t.available), ("path", path.getD .null),
    ("version", Json.ofOption .str t.version), ("installation_source", t.source.json),
    ("last_checked", .obj [("secs_since_epoch", .int t.lastChecked.seconds),
      ("nanos_since_epoch", .int t.lastChecked.nanos)])]

/-- A tool on the standard output. -/
def ToolStatus.print (name : String) (t : ToolStatus) : HostM Unit := do
  let sign := if t.available then "✅" else "❌"
  let version := (t.version.map fun v => s!" (v{v})").getD ""
  let place := (t.path.map fun p => s!" at {p.text}").getD ""
  let missing := if t.available then "" else " - missing"
  HostM.printLine s!"  {sign} {name}{version}{place}{missing}"

namespace Status

/-- The status as JSON. -/
def json (s : Status) : Except Json.Error Json := do
  let checkout ← s.checkout.json
  let tools ← s.tools.mapM fun t => do return (t.1, ← t.2.json)
  return .obj [("checkout", checkout), ("exists", .bool s.present), ("work_tree", .bool s.workTree),
    ("pinned_revision", Json.ofOption .str s.pinnedRevision), ("sync_policy", .str s.syncPolicy.text),
    ("head", Json.ofOption .str s.head),
    ("at_pinned_revision", Json.ofOption .bool s.atPinnedRevision),
    ("completed", .arr (s.completed.map Stage.json)), ("pending", .arr (s.pending.map Stage.json)),
    ("tools", .obj tools)]

/-- What the checkout looks like, in a line. -/
def summary (s : Status) : String :=
  if !s.present then "  ❌ not cloned yet"
  else if !s.workTree then "  ❌ exists but is not a git work tree"
  else match s.head, s.atPinnedRevision with
    | some head, some true => s!"  ✅ HEAD {head} (pinned)"
    | some head, some false =>
      let pin := s.pinnedRevision.getD "-"
      s!"  ⚠️  HEAD {head} differs from pinned {pin}"
    | some head, none => s!"  HEAD {head}"
    | none, _ => "  ⚠️  HEAD could not be resolved"

/-- The status on the standard output. -/
def print (s : Status) : HostM Unit := do
  HostM.printLine "\n📦 fiber checkout status"
  HostM.printLine ruler
  HostM.printLine s!"Checkout: {s.checkout.text}"
  HostM.printLine s.summary
  HostM.printLine s!"Sync policy: {s.syncPolicy.title}"
  HostM.printLine "\nStages:"
  s.completed.forM fun stage => HostM.printLine s!"  ✅ {stage.name}"
  s.pending.forM fun stage => do
    let name ← HostM.paint .dimmed stage.name
    HostM.printLine s!"  ⏳ {name}"
  HostM.printLine "\n🔧 Host tools:"
  s.tools.forM fun t => t.2.print t.1
  HostM.printLine ""

/-- Whether the checkout is there, whether it is a work tree, and the commit that is checked out. -/
def survey {m : Type → Type} [Monad m] [MonadLiftT HostM m] (source : SourceControl m) (checkout : Path) :
    m (Bool × Bool × Option String) := do
  let present ← HostM.present checkout
  let workTree ← if present then source.isWorkTree checkout else pure false
  let head ← if workTree then source.headRevision checkout else pure none
  return (present, workTree, head)

/-- The status of the checkout that settings name in a working directory. -/
def ofSettings {m : Type → Type} [Monad m] [MonadLiftT HostM m] (source : SourceControl m)
    (settings : Settings) (workdir : Path) : m Status := do
  let checkout := workdir.child settings.source.checkoutDir
  let (present, workTree, head) ← survey source checkout
  let pinnedRevision := settings.source.revision
  let atPinnedRevision ←
    pinMatchesHead source checkout settings.source.syncPolicy head pinnedRevision
  let completed := ((← Progress.load checkout).map Progress.completed).getD []
  let tools ← (ToolSearch.detectRequired settings.provision.shell).run' {}
  return {
    checkout, present, workTree, pinnedRevision
    syncPolicy := settings.source.syncPolicy
    head, atPinnedRevision, completed
    pending := Stage.sequence.filter fun stage => !completed.contains stage
    tools := tools.mergeSort fun a b => a.1 ≤ b.1 }

end Status

/-- The status of the checkout that the files and the command line name. -/
def Options.status {m : Type → Type} [Monad m] [MonadLiftT HostM m] (o : Options)
    (source : SourceControl m) : m (Except Failure Status) := o.withSettings (Status.ofSettings source)

/-- The `status` command. -/
def Command.statusMain (o : Options) : HostM (Except Failure Unit) := do
  match ← o.status (Git.sourceControl "git") with
  | .error e => return .error e
  | .ok found =>
    if o.json then HostM.printJson found.json
    else
      found.print
      return .ok ()

end Bringup
