import Bringup.Main
import Bringup.Procedure.Trace
import Bringup.Proofs.PinSafety
import Bringup.Proofs.Resume
import Bringup.Proofs.ExactlyOnce
import Bringup.Proofs.StatusReport
import Bringup.Proofs.ConfigFile
import Bringup.Proofs.ExitStatus
import Bringup.Proofs.StatusProgress
import Bringup.Proofs.Alike
import Bringup.Proofs.StandardOutput
import Bringup.Proofs.Recording
import Bringup.Proofs.OwnFiles
import Bringup.Proofs.Layers
import Bringup.Proofs.AssignmentLine
import Bringup.Proofs.LastWrite
import Bringup.Proofs.StringLiteral
import Bringup.Proofs.TornRecord
import Bringup.Proofs.SearchPath
import Bringup.Proofs.ReportedSource
import Bringup.Proofs.PartialSettings
import Bringup.Proofs.VersionNumber
import Bringup.Proofs.Containment
import Bringup.Proofs.VersionTail
import Bringup.Proofs.OptionWords
import Bringup.Proofs.Placement
