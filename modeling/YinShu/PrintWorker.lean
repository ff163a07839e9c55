import YinShu.Download
import YinShu.HtmlRender
import YinShu.OfficeConversion
import YinShu.PaperSizes
import YinShu.PrintQueue
import YinShu.Submission
import YinShu.TaskHistory

/-!
# The print worker

One queued job is processed by one of four pipelines: raw data, HTML, office
documents, and PDF or image files. A pipeline is a program that reports
statuses, works on temporary files and calls the print backend; it returns
early with an error at any step. `Host` holds every outcome that the world
outside the agent decides, so a run is determined by the job, the
configuration and the host.
-/

set_option autoImplicit false

namespace YinShu.PrintWorker
open YinShu.TextScan YinShu.Protocol YinShu.PrintModel YinShu.PrintQueue YinShu.Settings
open YinShu.ErrorState YinShu.FileStore YinShu.TempFile YinShu.PaperSizes YinShu.Download
open YinShu.Document YinShu.OfficeConversion YinShu.HtmlRender YinShu.Submission
open YinShu.TaskHistory

inductive ProcessJobError where
  | printerNotConfigured
  | paperNotConfigured
  | copiesOutOfRange
  | unsupportedFormat
  | invalidMessage (message : String)
  | fileTooLarge
  | formatMismatch (expected actual : String)
  | download (error : DownloadError)
  | document (error : DocumentError)
  | officeConvert (error : OfficeConvertError)
  | html (error : HtmlRenderError)
  | io (error : String)
  | print (error : PrintError)
  deriving DecidableEq, Repr

def ProcessJobError.message : ProcessJobError → String
  | .printerNotConfigured => "printer not configured"
  | .paperNotConfigured => "paper not configured"
  | .copiesOutOfRange => "copies out of range"
  | .unsupportedFormat => "unsupported document format"
  | .invalidMessage message => message
  | .fileTooLarge => "file too large"
  | .formatMismatch expected actual =>
    "format mismatch: expected " ++ expected ++ ", got " ++ actual
  | .download error => "download failed: " ++ error.message
  | .document error => "document normalization failed: " ++ error.message
  | .officeConvert error => error.message
  | .html error => "HTML rendering failed: " ++ error.message
  | .io error => error
  | .print error => "print failed: " ++ error.message

structure PreparedPdf where
  path : TempPath
  officeConverter : Option String
  deriving DecidableEq, Repr

structure Host where
  parsers : Parsers
  now : ℕ → String
  taskHistory : Bool
  timestamp : ℕ
  downloadUuid : String
  htmlUuid : String
  deletions : Deletions
  download : DownloadHost
  document : DocumentHost
  office : OfficeHost
  render : HtmlRenderRequest → Rendering
  backend : PrintBackend

inductive PrintRequest where
  | pdf (path : TempPath) (options : PrintOptions)
  | raw (data : Bytes) (options : RawPrintOptions)
  deriving DecidableEq, Repr

structure PrintCall where
  request : PrintRequest
  result : Except PrintError PrintSubmission

/-- What a job can see and change: the temporary files, the statuses it reports,
and the calls of the renderer and of the print backend. -/
structure World where
  files : Store TempPath
  logs : List TaskLogEntry
  history : List NewTaskHistoryEvent
  renders : List HtmlRenderRequest
  prints : List PrintCall

abbrev Work (α : Type) := EStateM ProcessJobError World α

structure PrintLogMetadata where
  printerName : Option String
  paperName : Option String
  copies : Option UInt16
  deriving DecidableEq, Repr

def fileMetadata (options : PrintOptions) : PrintLogMetadata :=
  ⟨some options.printerName,some options.paper.name,some options.copies⟩

def rawMetadata (options : RawPrintOptions) : PrintLogMetadata :=
  ⟨some options.printerName,none,none⟩

section Options

variable (queuedJob : QueuedJob) (config : AgentConfig)

def resolvePrinterName : Except ProcessJobError String :=
  match queuedJob.job.printerName.or config.printing.defaultPrinter with
  | some printerName => .ok printerName
  | none => .error .printerNotConfigured

def resolveFilePrintOptions : Except ProcessJobError PrintOptions :=
  match resolvePrinterName queuedJob config with
  | .error error => .error error
  | .ok printerName =>
    match queuedJob.job.paper.or config.printing.defaultPaper with
    | none => .error .paperNotConfigured
    | some paper =>
      let copies := queuedJob.job.copies.getD 1
      if copies = 0 ∨ config.limits.maxCopies < copies then .error .copiesOutOfRange
      else .ok ⟨printerName,paperInfoFromEffective paper,copies⟩

def resolvePrintOptions : Except ProcessJobError PrintOptions :=
  resolveFilePrintOptions queuedJob config

def resolveRawPrintOptions : Except ProcessJobError RawPrintOptions :=
  match resolvePrinterName queuedJob config with
  | .error error => .error error
  | .ok printerName => .ok ⟨printerName⟩

end Options

def formatMatches : SupportedFormat → DocumentFormat → Bool
  | .pdf,.pdf => true
  | .image,.png | .image,.jpeg => true
  | .png,.png => true
  | .jpg,.jpeg | .jpeg,.jpeg => true
  | _,_ => false

def supportedFormatName : SupportedFormat → String
  | .pdf => "pdf"
  | .image => "image"
  | .png => "png"
  | .jpg => "jpg"
  | .jpeg => "jpeg"
  | .docx => "docx"
  | .xlsx => "xlsx"
  | .pptx => "pptx"
  | .raw => "raw"
  | .html => "html"
  | .rawHtml => "raw-html"

def documentFormatName : DocumentFormat → String
  | .pdf => "pdf"
  | .png => "png"
  | .jpeg => "jpeg"

def officeFormatName : OfficeFormat → String
  | .docx => "docx"
  | .xlsx => "xlsx"
  | .pptx => "pptx"

variable (host : Host)

section Logging

variable (queuedJob : QueuedJob) (status : JobStatus) (message : String)

def historyEvent (timestamp : String) (metadata : Option PrintLogMetadata) :
    NewTaskHistoryEvent where
  jobId := queuedJob.job.jobId
  requestId := some queuedJob.requestId
  batchId := queuedJob.batchId
  source := .webSocket
  status := taskHistoryStatus status
  message := if message.isEmpty then none else some message
  printerName := metadata.bind PrintLogMetadata.printerName
  paperName := metadata.bind PrintLogMetadata.paperName
  copies := metadata.bind PrintLogMetadata.copies
  occurredAt := timestamp

def pushLogWithPrintMetadata (metadata : Option PrintLogMetadata) (w : World) : World :=
  let timestamp := host.now w.logs.length
  { w with
    logs := w.logs++[logEntry queuedJob timestamp status message]
    history := if host.taskHistory
      then w.history++[historyEvent queuedJob status message timestamp metadata]
      else w.history }

def pushLogWithMetadata (options : PrintOptions) : Work PUnit :=
  modify (pushLogWithPrintMetadata host queuedJob status message (some (fileMetadata options)))

def pushLogWithRawMetadata (options : RawPrintOptions) : Work PUnit :=
  modify (pushLogWithPrintMetadata host queuedJob status message (some (rawMetadata options)))

def pushLog : Work PUnit :=
  modify (pushLogWithPrintMetadata host queuedJob status message none)

end Logging

def onFiles {ε α : Type} (m : EStateM ε (Store TempPath) α) : EStateM ε World α :=
  zoom World.files (fun files w => { w with files := files }) m

def cleanupFile (path : TempPath) (site : Deletion) : Work PUnit :=
  onFiles (ignore (delete path (host.deletions site)))

def recordPrint (request : PrintRequest) (result : Except PrintError PrintSubmission) :
    Work PrintSubmission := do
  modify (fun w => { w with prints := w.prints++[⟨request,result⟩] })
  ofExcept (result.mapError .print)

def printPdf (path : TempPath) (options : PrintOptions) : Work PrintSubmission :=
  recordPrint (.pdf path options) (host.backend.printPdf path options)

def printRaw (data : Bytes) (options : RawPrintOptions) : Work PrintSubmission := do
  let result ← attempt (onFiles (host.backend.printRaw host.deletions data options))
  recordPrint (.raw data options) result

def trackingStatus : PrintTrackingOutcome → JobStatus × String
  | .completed message => (.completed,message)
  | .failed message => (.failed,message)
  | .unknown message => (.unknown,message)

/-- The common end of every pipeline: one call of the backend, then the report of
its submission and of what the platform says about it. -/
def submitAndTrack (log : JobStatus → String → Work PUnit) (call : Work PrintSubmission)
    (track : PrintSubmission → PrintTrackingOutcome) : Work PUnit := do
  let submission ← call
  log .submitted "submitted to system print queue"
  if submission.trackingSupported then
    let outcome := trackingStatus (track submission)
    log outcome.1 outcome.2
  else pure ⟨⟩

def submitPdfAndTrack (queuedJob : QueuedJob) (options : PrintOptions) (pdfPath : TempPath) :
    Work PUnit := do
  pushLogWithMetadata host queuedJob .printing "printing" options
  submitAndTrack (fun status message => pushLogWithMetadata host queuedJob status message options)
    (printPdf host pdfPath options)
    (fun submission => host.backend.trackSubmission submission options)

/-- The decoded data of a raw job, within the size limit. -/
def rawData (queuedJob : QueuedJob) (config : AgentConfig) : Except ProcessJobError Bytes :=
  match queuedJob.job.dataBase64 with
  | none => .error (.invalidMessage "raw job requires data_base64")
  | some dataBase64 =>
    match host.parsers.base64 dataBase64 with
    | none => .error (.invalidMessage "invalid raw data_base64")
    | some data =>
      if maxBytes config.limits.maxFileSizeMb < data.length then .error .fileTooLarge
      else .ok data

def printRawJob (queuedJob : QueuedJob) (options : RawPrintOptions) (config : AgentConfig) :
    Work PUnit := do
  let data ← ofExcept (rawData host queuedJob config)
  pushLogWithRawMetadata host queuedJob .printing "printing raw" options
  submitAndTrack
    (fun status message => pushLogWithRawMetadata host queuedJob status message options)
    (printRaw host data options)
    (fun submission => host.backend.trackRawSubmission submission options)

def htmlSource (queuedJob : QueuedJob) : Except ProcessJobError HtmlSource :=
  match queuedJob.job.format with
  | .html =>
    match queuedJob.job.fileUrl with
    | none => .error (.invalidMessage "html job requires file_url")
    | some fileUrl =>
      match validateHtmlFileUrl host.parsers fileUrl with
      | .error error => .error (.invalidMessage ("invalid html file_url: " ++ error.message))
      | .ok url => .ok (.url url)
  | .rawHtml =>
    match queuedJob.job.html with
    | none => .error (.invalidMessage "raw-html job requires html")
    | some html => .ok (.inline html)
  | _ => .error .unsupportedFormat

def htmlRenderRequest (queuedJob : QueuedJob) (options : PrintOptions) (source : HtmlSource) :
    HtmlRenderRequest where
  source := source
  allowedLoopbackOrigin := queuedJob.htmlLocalOrigin.bind host.parsers.url
  paper := queuedJob.job.paper.getD ⟨options.paper.widthMm,options.paper.heightMm⟩
  waitMs := queuedJob.job.waitMs.getD defaultHtmlWaitMs
  outputPath := tempHtmlPath host.htmlUuid

def render (request : HtmlRenderRequest) : Work (Except HtmlRenderError HtmlRenderResult) := do
  modify (fun w => { w with
    files := (host.render request).store request.outputPath w.files
    renders := w.renders++[request] })
  pure (host.render request).result

/-- The renderer may have put the document elsewhere than it was asked to. -/
def cleanupRendering (renderedPath outputPath : TempPath) : Work PUnit := do
  cleanupFile host renderedPath .rendered
  if renderedPath ≠ outputPath then cleanupFile host outputPath .requested else pure ⟨⟩

def printHtmlJob (queuedJob : QueuedJob) (options : PrintOptions) : Work PUnit := do
  let source ← ofExcept (htmlSource host queuedJob)
  let outputPath := tempHtmlPath host.htmlUuid
  match ← render host (htmlRenderRequest host queuedJob options source) with
  | .error error => do
    cleanupFile host outputPath .failedRendering
    throw (.html error)
  | .ok rendered => do
    pushLogWithMetadata host queuedJob .printing ("rendering html with " ++ rendered.renderer)
      options
    thenAlways (submitPdfAndTrack host queuedJob options rendered.outputPath)
      (cleanupRendering host rendered.outputPath outputPath)

def normalizePdfPath (downloadedPath : TempPath) :
    EStateM ProcessJobError (Store TempPath) TempPath :=
  if eqIgnoreAsciiCase downloadedPath.extension "pdf" then pure downloadedPath
  else do
    let outputPath := downloadedPath.withExtension "pdf"
    (copy downloadedPath outputPath host.document.copy).adaptExcept .io
    pure outputPath

def checkOfficeFormat (expected : OfficeFormat) (content : Bytes) :
    Except ProcessJobError Unit :=
  match detectOfficeFormat host.office content with
  | .error error => .error (.officeConvert error)
  | .ok actual =>
    if actual = some expected then .ok ()
    else .error (.formatMismatch (officeFormatName expected)
      ((actual.map officeFormatName).getD "unsupported"))

def checkDocumentFormat (expected : SupportedFormat) (content : Bytes) :
    Except ProcessJobError DocumentFormat :=
  match detectFormat host.document.header content with
  | .error error => .error (.document error)
  | .ok none => .error .unsupportedFormat
  | .ok (some actual) =>
    if formatMatches expected actual then .ok actual
    else .error (.formatMismatch (supportedFormatName expected) (documentFormatName actual))

def prepareOffice (downloadedPath : TempPath) (expected : OfficeFormat) :
    EStateM ProcessJobError (Store TempPath) PreparedPdf := do
  let outputPath := downloadedPath.withExtension "pdf"
  let converter ← (officeToPdfWithConverter host.office host.deletions downloadedPath
    expected outputPath).adaptExcept .officeConvert
  pure ⟨outputPath,some converter⟩

def prepareDocument (downloadedPath : TempPath) (paper : PaperInfo) :
    DocumentFormat → EStateM ProcessJobError (Store TempPath) PreparedPdf
  | .pdf => do
    let path ← normalizePdfPath host downloadedPath
    pure ⟨path,none⟩
  | .png | .jpeg => do
    let outputPath := downloadedPath.withExtension "pdf"
    (imageToPdf host.document downloadedPath ⟨paper.widthMm,paper.heightMm⟩
      outputPath).adaptExcept .document
    pure ⟨outputPath,none⟩

def preparePrintablePdf (downloadedPath : TempPath) (expectedFormat : SupportedFormat)
    (paper : PaperInfo) : EStateM ProcessJobError (Store TempPath) PreparedPdf := do
  let files ← get
  match officeFormatFromSupported expectedFormat with
  | some expectedOfficeFormat => do
    ofExcept (checkOfficeFormat host expectedOfficeFormat (files.bytes downloadedPath))
    prepareOffice host downloadedPath expectedOfficeFormat
  | none => do
    let actual ← ofExcept (checkDocumentFormat host expectedFormat (files.bytes downloadedPath))
    prepareDocument host downloadedPath paper actual

def pushOfficeConverter (queuedJob : QueuedJob) (options : PrintOptions) :
    Option String → Work PUnit
  | some converter =>
    pushLogWithMetadata host queuedJob .printing ("converted office with " ++ converter) options
  | none => pure ⟨⟩

def cleanupPrintable (printablePath downloadedPath : TempPath) : Work PUnit :=
  if printablePath ≠ downloadedPath then cleanupFile host printablePath .printable else pure ⟨⟩

def printDownloadedFile (queuedJob : QueuedJob) (options : PrintOptions)
    (downloadedPath : TempPath) : Work PUnit := do
  let printable ← onFiles
    (preparePrintablePdf host downloadedPath queuedJob.job.format options.paper)
  pushOfficeConverter host queuedJob options printable.officeConverter
  thenAlways (submitPdfAndTrack host queuedJob options printable.path)
    (cleanupPrintable host printable.path downloadedPath)

def printFileJob (queuedJob : QueuedJob) (config : AgentConfig) : Work PUnit := do
  pushLog host queuedJob .downloading "downloading"
  let fileUrl ← ofExcept (match queuedJob.job.fileUrl with
    | some fileUrl => .ok fileUrl
    | none => .error (.invalidMessage "file job requires file_url"))
  let options ← ofExcept (resolvePrintOptions queuedJob config)
  let downloadedPath ← onFiles ((downloadToPath host.parsers config.limits host.download
    host.deletions (tempDownloadPath host.timestamp host.downloadUuid)
    fileUrl).adaptExcept .download)
  thenAlways (printDownloadedFile host queuedJob options downloadedPath)
    (cleanupFile host downloadedPath .downloaded)

def processJobInner (queuedJob : QueuedJob) (config : AgentConfig) : Work PUnit :=
  match queuedJob.job.format with
  | .html | .rawHtml => do
    let options ← ofExcept (resolvePrintOptions queuedJob config)
    printHtmlJob host queuedJob options
  | .raw => do
    let options ← ofExcept (resolveRawPrintOptions queuedJob config)
    printRawJob host queuedJob options config
  | _ => printFileJob host queuedJob config

def processJob (queuedJob : QueuedJob) (config : AgentConfig) (w : World) : World :=
  let w := pushLogWithPrintMetadata host queuedJob .queued "queued" none w
  match processJobInner host queuedJob config w with
  | .ok _ w => w
  | .error error w =>
    pushLogWithPrintMetadata host queuedJob .failed error.message none w

end YinShu.PrintWorker
