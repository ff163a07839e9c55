import YinShu.Settings

/-!
# Functional commands

The commands that the command line and the desktop share, how each depends on
a running agent, and the errors they end with.
-/

set_option autoImplicit false

namespace YinShu.FunctionalCommand
open YinShu.Settings

inductive CommandPolicy where
  | onlineOnly
  | onlinePreferred
  | offlineAllowed
  deriving DecidableEq, Repr

inductive CommandErrorKind where
  | invalidInput
  | notRunning
  | permissionDenied
  | conflict
  | runtime
  | unsupported
  deriving DecidableEq, Repr

structure CommandError where
  kind : CommandErrorKind
  message : String
  deriving DecidableEq, Repr

inductive ProductKind where
  | desktop
  | headless
  deriving DecidableEq, Repr

structure ExportConfigOptions where
  servicePort : Bool
  allowedOrigins : Bool
  allowedIps : Bool
  deriving DecidableEq, Repr

inductive Command where
  | getConfig
  | saveConfig (config : AgentConfig)
  | listPrinters
  | listPapers (printerName : String)
  | getLogs
  | getTaskHistory
  | getTaskHistoryEvents (jobId : String)
  | clearTaskHistory
  | exportConfig (path password : String) (options : ExportConfigOptions)
  | previewConfigImport (path password : String)
  | importConfig (path password expectedFileHash : String)
  | testPrint (config : AgentConfig)
  | validateConfig (path : Option String)
  | doctor (product : ProductKind)
  | exportDiagnostics (path doctorJson : Option String)
  | status
  deriving DecidableEq, Repr

def Command.policy : Command → CommandPolicy
  | .getLogs | .testPrint _ | .status => .onlineOnly
  | .getConfig | .saveConfig _ | .listPrinters | .listPapers _ | .getTaskHistory
  | .getTaskHistoryEvents _ | .clearTaskHistory | .exportConfig _ _ _
  | .previewConfigImport _ _ | .importConfig _ _ _ | .doctor _ => .onlinePreferred
  | .validateConfig _ | .exportDiagnostics _ _ => .offlineAllowed

end YinShu.FunctionalCommand
