/-!
The kinds of failure: one for each step of the procedure, one for settings and one for files.
-/

namespace Bringup

set_option autoImplicit false

/-- What a run failed at. -/
inductive FailureKind where
  | acquisition
  | revision
  | sync
  | environmentSetup
  | packageInstall
  | configure
  | config
  | io
deriving DecidableEq, Repr, Inhabited

namespace FailureKind

/-- Every kind, in order. -/
def all : List FailureKind :=
  [acquisition, revision, sync, environmentSetup, packageInstall, configure, config, io]

/-- The spelling in records. -/
def text : FailureKind → String
  | acquisition => "acquisition"
  | revision => "revision"
  | sync => "sync"
  | environmentSetup => "environment_setup"
  | packageInstall => "package_install"
  | configure => "configure"
  | config => "config"
  | io => "io"

/-- The name that is shown. -/
def name : FailureKind → String
  | acquisition => "AcquisitionError"
  | revision => "RevisionError"
  | sync => "SyncError"
  | environmentSetup => "EnvironmentSetupError"
  | packageInstall => "PackageInstallError"
  | configure => "ConfigureError"
  | config => "ConfigError"
  | io => "IoError"

/-- The kind with a spelling. -/
def ofText? (s : String) : Option FailureKind := all.find? fun k => k.text == s

theorem ofText?_text (k : FailureKind) : ofText? k.text = some k := by
  cases k <;> decide

/-- The failure of a step, and not of what comes before any step. -/
def isStep : FailureKind → Bool
  | config => false
  | io => false
  | _ => true

end FailureKind

end Bringup
