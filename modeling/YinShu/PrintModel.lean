import Mathlib.Data.Rat.Defs

/-!
# Printers, papers and the print backend

The data exchanged with a platform print backend. Millimetre sizes are exact
rationals. The backend is a record of the answers that the platform gives to
the calls of the agent; the submitting calls belong to the worker.
-/

set_option autoImplicit false

namespace YinShu.PrintModel

inductive PrinterAvailability where
  | available
  | unavailable
  | unknown
  deriving DecidableEq, Repr

structure PrinterInfo where
  name : String
  isDefault : Bool
  dpi : Option UInt32
  port : Option String
  isLocal : Option Bool
  isNetwork : Option Bool
  isVirtual : Option Bool
  availability : PrinterAvailability
  deriving DecidableEq, Repr

structure PaperInfo where
  id : String
  name : String
  widthMm : ℚ
  heightMm : ℚ
  deriving DecidableEq, Repr

structure PrinterTrayInfo where
  id : String
  name : String
  deriving DecidableEq, Repr

structure PrinterMediaTypeInfo where
  id : String
  name : String
  deriving DecidableEq, Repr

structure PrintOptions where
  printerName : String
  paper : PaperInfo
  copies : UInt16
  deriving DecidableEq, Repr

structure RawPrintOptions where
  printerName : String
  deriving DecidableEq, Repr

structure PrintSubmission where
  submittedAt : String
  backend : String
  systemJobId : Option String
  trackingSupported : Bool
  deriving DecidableEq, Repr

inductive PrintTrackingOutcome where
  | completed (message : String)
  | failed (message : String)
  | unknown (message : String)
  deriving DecidableEq, Repr

inductive PrintError where
  | printerNotFound (name : String)
  | paperNotFound (name : String)
  | commandFailed (command message : String)
  | printerOffline
  | unsupportedPlatform
  deriving DecidableEq, Repr

def PrintError.message : PrintError → String
  | .printerNotFound name => "printer not found: " ++ name
  | .paperNotFound name => "paper not found: " ++ name
  | .commandFailed command message => "print command failed: " ++ command ++ ": " ++ message
  | .printerOffline => "printer offline"
  | .unsupportedPlatform => "printing is not supported on this platform"

structure PrinterQueries where
  listPrinters : Except PrintError (List PrinterInfo)
  listPapers : String → Except PrintError (List PaperInfo)
  listTrays : String → Except PrintError (List PrinterTrayInfo)
  listMediaTypes : String → Except PrintError (List PrinterMediaTypeInfo)

end YinShu.PrintModel
