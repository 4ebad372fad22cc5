import Bringup.Failure.Kind
import Bringup.Host.IoError
import Bringup.Json.Read

/-!
Why a run stops, in words, and the exit status that follows.
-/

namespace Bringup

set_option autoImplicit false

/-- A command of source control that did not succeed. -/
structure CommandFailure where
  message : String
  exitCode : Option Int
deriving DecidableEq, Repr

/-- The failure of a setup script. -/
inductive ProvisionFailure where
  | missingScript (script : String)
  | failed (script : String) (code : Option Int)
  | launch (script : String) (error : IoError)
deriving DecidableEq, Repr

/-- How a script ended. -/
def ProvisionFailure.describeExit : Option Int → String
  | some code => s!"status {code}"
  | none => "no status (terminated by signal)"

/-- The wording of a script's failure. -/
def ProvisionFailure.message : ProvisionFailure → String
  | missingScript script => s!"script {script} not found"
  | failed script code => s!"{script} exited with {describeExit code}"
  | launch script error => s!"could not launch {script}: {error.message}"

/-- A failure to write the tool's path into its configuration file. -/
inductive ConfigureFailure where
  | invalidDisassembler (path : String)
  | missingConfigFile (path : String)
  | missingSetting (key file : String)
  | io (error : IoError)
deriving DecidableEq, Repr

/-- The wording of a failure to configure. -/
def ConfigureFailure.message : ConfigureFailure → String
  | invalidDisassembler path =>
    s!"disassembler path {path} must be an absolute path to an existing file"
  | missingConfigFile path => s!"config file {path} does not exist"
  | missingSetting key file => s!"setting {key} not found in {file}"
  | io error => s!"IO error: {error.message}"

/-- Settings that cannot be used. -/
inductive SettingsFailure where
  | parsing (path reason : String)
  | missingRevision
  | invalidValue (field reason : String)
deriving DecidableEq, Repr

/-- The wording of what is wrong with settings. -/
def SettingsFailure.message : SettingsFailure → String
  | parsing path reason => s!"Failed to parse {path}: {reason}"
  | missingRevision =>
    "No revision to pin: set `revision` in .fiber-bootstrap.toml, FIBER_REVISION or --revision"
  | invalidValue field reason => s!"Invalid value for {field}: {reason}"

/-- Why a run stops. -/
inductive Failure where
  | acquisition (failure : CommandFailure)
  | revision (revision : String) (failure : CommandFailure)
  | sync (failure : CommandFailure)
  | environmentSetup (failure : ProvisionFailure)
  | packageInstall (failure : ProvisionFailure)
  | configure (failure : ConfigureFailure)
  | settings (failure : SettingsFailure)
  | io (error : IoError)
  /-- A JSON text that could not be read or written. -/
  | json (error : Json.Error)
deriving DecidableEq, Repr

namespace Failure

/-- The wording of a failure. -/
def message : Failure → String
  | acquisition failure => s!"Acquisition failed: {failure.message}"
  | revision rev failure => s!"Revision {rev} could not be checked out: {failure.message}"
  | sync failure => s!"Synchronization failed: {failure.message}"
  | environmentSetup failure => s!"Environment setup failed: {failure.message}"
  | packageInstall failure => s!"Package installation failed: {failure.message}"
  | configure failure => s!"Configuration of the external tool failed: {failure.message}"
  | settings failure => s!"Configuration error: {failure.message}"
  | io error => s!"IO error: {error.message}"
  | json error => s!"Serialization error: {error.message}"

/-- The kind of a failure. -/
def kind : Failure → FailureKind
  | acquisition _ => .acquisition
  | revision _ _ => .revision
  | sync _ => .sync
  | environmentSetup _ => .environmentSetup
  | packageInstall _ => .packageInstall
  | configure _ => .configure
  | settings _ => .config
  | io _ => .io
  | json _ => .io

/-- The exit code of the command that failed, if it has one. -/
def commandCode : Failure → Option Int
  | acquisition failure => failure.exitCode
  | revision _ failure => failure.exitCode
  | sync failure => failure.exitCode
  | environmentSetup (.failed _ code) => code
  | packageInstall (.failed _ code) => code
  | _ => none

/-- The exit status: the failing command's own code when it is not zero, else one. -/
def exitCode (f : Failure) : Int :=
  match f.commandCode with
  | some code => if code = 0 then 1 else code
  | none => 1

/-- A step failed, and not what comes before any step. -/
def isStepFailure (f : Failure) : Bool := f.kind.isStep

theorem exitCode_ne_zero (f : Failure) : f.exitCode ≠ 0 := by
  unfold exitCode
  split
  · split <;> omega
  · omega

end Failure

end Bringup
