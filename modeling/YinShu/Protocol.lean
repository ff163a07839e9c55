import Mathlib.Algebra.Group.Nat.Defs
import YinShu.InternetAddress
import YinShu.PrintModel
import YinShu.WebUrl

/-!
# The browser protocol

Jobs, messages and the acceptance rules for the eleven formats. The parsers
of URLs, of base64 texts and of network texts come from libraries; they are
fixed for a development and otherwise arbitrary.
-/

set_option autoImplicit false

namespace YinShu.Protocol
open YinShu.TextScan YinShu.InternetAddress YinShu.WebUrl YinShu.PrintModel

structure Parsers where
  url : String → Option Url
  base64 : String → Option (List UInt8)
  ipNet : String → Option IpNet

/-- The loop `for x in xs { check(x)?; }`. -/
def checkAll {α ε : Type*} (check : α → Except ε Unit) : List α → Except ε Unit
  | [] => .ok ()
  | x::xs =>
    match check x with
    | .error error => .error error
    | .ok _ => checkAll check xs

theorem checkAll_ok {α ε : Type*} (check : α → Except ε Unit) (xs : List α) :
    checkAll check xs = .ok () ↔ ∀ x ∈ xs, check x = .ok () := by
  induction xs with
  | nil => simp [checkAll]
  | cons x xs ih =>
    cases h : check x with
    | error error => simp [checkAll,h]
    | ok u => simpa [checkAll,h] using ih

def defaultHtmlWaitMs : UInt64 := 1000
def maxHtmlWaitMs : UInt64 := 30000

inductive SupportedFormat where
  | pdf | image | png | jpg | jpeg | docx | xlsx | pptx | raw | html | rawHtml
  deriving DecidableEq, Repr

inductive ProtocolError where
  | invalidOrigin
  | unsupportedOriginScheme
  | invalidFileUrl
  | unsupportedFileUrlScheme
  | invalidPaperDimensions
  deriving DecidableEq, Repr

def ProtocolError.message : ProtocolError → String
  | .invalidOrigin => "invalid origin"
  | .unsupportedOriginScheme => "unsupported origin scheme"
  | .invalidFileUrl => "invalid file url"
  | .unsupportedFileUrlScheme => "unsupported file url scheme"
  | .invalidPaperDimensions => "paper dimensions must be positive"

inductive JobValidationError where
  | missingRawData | rawFileUrlNotAllowed | rawPaperNotAllowed | rawCopiesNotAllowed
  | missingFileUrl | fileRawDataNotAllowed | invalidRawData | fileTooLarge
  | missingHtmlFileUrl | invalidHtmlFileUrl | htmlInlineNotAllowed | missingRawHtml
  | rawHtmlFileUrlNotAllowed | htmlDataBase64NotAllowed | nonHtmlHtmlNotAllowed
  | nonHtmlWaitNotAllowed | htmlWaitOutOfRange
  deriving DecidableEq, Repr

def JobValidationError.message : JobValidationError → String
  | .missingRawData => "raw job requires data_base64"
  | .rawFileUrlNotAllowed => "raw job does not accept file_url"
  | .rawPaperNotAllowed => "raw job does not accept paper"
  | .rawCopiesNotAllowed => "raw job does not accept copies"
  | .missingFileUrl => "file job requires file_url"
  | .fileRawDataNotAllowed => "file job does not accept data_base64"
  | .invalidRawData => "invalid raw data_base64"
  | .fileTooLarge => "file too large"
  | .missingHtmlFileUrl => "html job requires file_url"
  | .invalidHtmlFileUrl => "html job file_url must be an absolute http or https url"
  | .htmlInlineNotAllowed => "html job does not accept inline html"
  | .missingRawHtml => "raw-html job requires html"
  | .rawHtmlFileUrlNotAllowed => "raw-html job does not accept file_url"
  | .htmlDataBase64NotAllowed => "html jobs do not accept data_base64"
  | .nonHtmlHtmlNotAllowed => "non-html job does not accept html"
  | .nonHtmlWaitNotAllowed => "non-html job does not accept wait_ms"
  | .htmlWaitOutOfRange => "html wait_ms must be between 0 and 30000"

structure EffectivePaper where
  widthMm : ℚ
  heightMm : ℚ
  deriving DecidableEq, Repr

def EffectivePaper.validate (paper : EffectivePaper) : Except ProtocolError Unit :=
  if 0 < paper.widthMm ∧ 0 < paper.heightMm then .ok () else .error .invalidPaperDimensions

structure PrintJobInput where
  jobId : String
  format : SupportedFormat
  printerName : Option String := none
  fileUrl : Option String := none
  dataBase64 : Option String := none
  html : Option String := none
  waitMs : Option UInt64 := none
  copies : Option UInt16 := none
  paper : Option EffectivePaper := none
  deriving DecidableEq, Repr

/-- `max_file_size_mb.saturating_mul(1024 * 1024)` on 64 bits. -/
def maxBytes (maxFileSizeMb : UInt64) : ℕ := min (maxFileSizeMb.toNat*(1024*1024)) (2^64-1)

def validateOrigin (p : Parsers) (value : String) : Except ProtocolError Unit :=
  match p.url value with
  | none => .error .invalidOrigin
  | some url =>
    if !isHttp url.scheme then .error .unsupportedOriginScheme
    else if url.origin.asciiSerialization = value then .ok ()
    else .error .invalidOrigin

def isPdfDataUrl (value : String) : Bool :=
  match stripStart "data:".toList value.toList with
  | none => false
  | some payload =>
    match splitOnceChars ',' payload with
    | none => false
    | some (metadata,data) =>
      if data.isEmpty then false
      else match splitChars ';' metadata with
        | [] => false
        | mediaType::parts =>
          eqIgnoreAsciiCase (String.ofList mediaType) "application/pdf" &&
            parts.any (fun part => eqIgnoreAsciiCase (String.ofList part) "base64")

def validateFileUrl (p : Parsers) (value : String) : Except ProtocolError Url :=
  match p.url value with
  | none => .error .invalidFileUrl
  | some url =>
    if isHttp url.scheme then .ok url
    else if url.scheme = "data" ∧ isPdfDataUrl value then .ok url
    else .error .unsupportedFileUrlScheme

def validateHtmlFileUrl (p : Parsers) (value : String) : Except ProtocolError Url :=
  match p.url value with
  | none => .error .invalidFileUrl
  | some url =>
    if !isHttp url.scheme then .error .unsupportedFileUrlScheme
    else if url.hostStr.isNone then .error .invalidFileUrl
    else .ok url

section Validation

variable (p : Parsers) (job : PrintJobInput)

def validateNonHtmlFields : Except JobValidationError Unit :=
  if job.html.isSome then .error .nonHtmlHtmlNotAllowed
  else if job.waitMs.isSome then .error .nonHtmlWaitNotAllowed
  else .ok ()

def validateRaw (maxFileSizeMb : UInt64) : Except JobValidationError Unit :=
  if job.fileUrl.isSome then .error .rawFileUrlNotAllowed
  else if job.paper.isSome then .error .rawPaperNotAllowed
  else if job.copies.isSome then .error .rawCopiesNotAllowed
  else match validateNonHtmlFields job with
    | .error error => .error error
    | .ok _ =>
      match job.dataBase64.filter (fun value => !value.isEmpty) with
      | none => .error .missingRawData
      | some dataBase64 =>
        match p.base64 dataBase64 with
        | none => .error .invalidRawData
        | some bytes =>
          if maxBytes maxFileSizeMb < bytes.length then .error .fileTooLarge else .ok ()

def validateFileJob : Except JobValidationError Unit :=
  if (job.fileUrl.filter (fun value => !value.isEmpty)).isNone then .error .missingFileUrl
  else if job.dataBase64.isSome then .error .fileRawDataNotAllowed
  else validateNonHtmlFields job

def validateHtmlWait : Except JobValidationError Unit :=
  match job.waitMs with
  | some waitMs => if maxHtmlWaitMs < waitMs then .error .htmlWaitOutOfRange else .ok ()
  | none => .ok ()

def validateHtmlFileJob : Except JobValidationError Unit :=
  match job.fileUrl.filter (fun value => !value.isEmpty) with
  | none => .error .missingHtmlFileUrl
  | some fileUrl =>
    match validateHtmlFileUrl p fileUrl with
    | .error _ => .error .invalidHtmlFileUrl
    | .ok _ =>
      if job.html.isSome then .error .htmlInlineNotAllowed
      else if job.dataBase64.isSome then .error .htmlDataBase64NotAllowed
      else validateHtmlWait job

def validateRawHtml (maxFileSizeMb : UInt64) : Except JobValidationError Unit :=
  if job.fileUrl.isSome then .error .rawHtmlFileUrlNotAllowed
  else if job.dataBase64.isSome then .error .htmlDataBase64NotAllowed
  else match job.html.filter (fun value => !(trim value).isEmpty) with
    | none => .error .missingRawHtml
    | some html =>
      if maxBytes maxFileSizeMb < html.utf8ByteSize then .error .fileTooLarge
      else validateHtmlWait job

def validateForAcceptance (maxFileSizeMb : UInt64) : Except JobValidationError Unit :=
  match job.format with
  | .raw => validateRaw p job maxFileSizeMb
  | .pdf | .image | .png | .jpg | .jpeg | .docx | .xlsx | .pptx => validateFileJob job
  | .html => validateHtmlFileJob p job
  | .rawHtml => validateRawHtml job maxFileSizeMb

end Validation

inductive ClientMessage where
  | ping (time : Int64)
  | getPrintersList (requestId : String)
  | getPrinterInfo (requestId printerName : String)
  | getPrintQueue (requestId : String)
  | print (requestId : String) (job : PrintJobInput)
  | printBatch (requestId batchId : String) (jobs : List PrintJobInput)
  deriving DecidableEq, Repr

inductive JobStatus where
  | queued | downloading | printing | submitted | completed | failed | unknown | cancelled
  deriving DecidableEq, Repr

inductive ErrorCode where
  | originNotAllowed | invalidMessage | printerNotConfigured | printerNotFound
  | paperNotConfigured | paperNotFound | downloadFailed | fileTooLarge | unsupportedFormat
  | formatMismatch | officeConvertFailed | printFailed | jobDuplicated | batchDuplicated
  | batchTooLarge | copiesOutOfRange | servicePortInUse | internalError
  deriving DecidableEq, Repr

structure PrinterDetails where
  name : String
  isDefault : Bool
  dpi : Option UInt32
  port : Option String
  isLocal : Option Bool
  isNetwork : Option Bool
  isVirtual : Option Bool
  papers : List PaperInfo
  trays : List PrinterTrayInfo
  mediaTypes : List PrinterMediaTypeInfo
  deriving DecidableEq, Repr

structure PrintQueueJobInfo where
  requestId : String
  batchId : Option String
  jobId : String
  status : JobStatus
  message : Option String
  deriving DecidableEq, Repr

inductive ServerMessage where
  | pong (time : Int64) (agentStatus : String)
  | printersList (requestId : String) (printers : List PrinterInfo)
  | printerInfo (requestId : String) (printer : PrinterDetails)
  | printQueue (requestId : String) (jobs : List PrintQueueJobInfo)
  | jobStatus (requestId : Option String) (jobId : String) (status : JobStatus)
      (message : Option String)
  | error (requestId : Option String) (errorCode : ErrorCode) (message : String)
  deriving DecidableEq, Repr

/-- A status record as the worker logs it and broadcasts it to the sockets. -/
structure TaskLogEntry where
  timestamp : String
  requestId : Option String
  batchId : Option String
  jobId : Option String
  origin : Option String
  status : JobStatus
  message : String
  deriving DecidableEq, Repr

theorem validateHtmlFileUrl_ok (p : Parsers) (value : String) (url : Url) :
    validateHtmlFileUrl p value = .ok url ↔
      p.url value = some url ∧ isHttp url.scheme = true ∧ url.hostStr.isSome = true := by
  unfold validateHtmlFileUrl
  cases h : p.url value with
  | none => simp
  | some v =>
    by_cases hs : isHttp v.scheme = true
    · cases hh : v.hostStr with
      | none =>
        simp only [hs,hh]
        constructor
        · simp
        · rintro ⟨⟨⟩,-,hu⟩
          simp [hh] at hu
      | some host =>
        simp only [hs,hh]
        constructor
        · rintro ⟨⟩
          exact ⟨rfl,hs,by simp [hh]⟩
        · rintro ⟨⟨⟩,-,-⟩
          rfl
    · simp only [hs]
      constructor
      · simp
      · rintro ⟨⟨⟩,hu,-⟩
        exact absurd hu hs

end YinShu.Protocol
