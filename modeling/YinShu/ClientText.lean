import YinShu.PrintQueue
import YinShu.Settings

/-!
# Text frames of a browser connection

The handler of one client text frame: parsing, the queries, the acceptance of
single jobs and batches, and the loopback grant for HTML pages. It returns the
reply, the identifiers bound to the connection, the queue it leaves behind and
whether it called `notify_one`. JSON parsing is a parameter.
-/

set_option autoImplicit false

namespace YinShu.ClientText
open YinShu.WebUrl YinShu.PrintModel YinShu.Protocol YinShu.PrintQueue YinShu.Settings

structure ServerEnv where
  parsers : Parsers
  fromStr : String → Except String ClientMessage
  printing : PrinterQueries

structure ClientTextOutcome where
  response : ServerMessage
  acceptedJobIds : List String
  deriving DecidableEq

structure Handled where
  outcome : ClientTextOutcome
  queue : QueueState
  notify : Bool
  deriving DecidableEq

def ClientTextOutcome.ofResponse (response : ServerMessage) : ClientTextOutcome := ⟨response,[]⟩

def queueErrorResponse (requestId : Option String) (error : QueueError) : ServerMessage :=
  let errorCode := match error with
    | .duplicateJobId => ErrorCode.jobDuplicated
    | .duplicateBatchId => .batchDuplicated
    | .invalidMessage => .invalidMessage
  .error requestId errorCode error.message

def invalidMessageResponse (requestId : Option String) (message : String) : ServerMessage :=
  .error requestId .invalidMessage message

def jobValidationErrorResponse (requestId : Option String) (error : JobValidationError) :
    ServerMessage :=
  let errorCode := match error with
    | .fileTooLarge => ErrorCode.fileTooLarge
    | _ => .invalidMessage
  .error requestId errorCode error.message

def printErrorResponse (requestId : Option String) (error : PrintError) : ServerMessage :=
  let errorCode := match error with
    | .printerNotFound _ => ErrorCode.printerNotFound
    | .paperNotFound _ => .paperNotFound
    | .unsupportedPlatform | .commandFailed _ _ | .printerOffline => .printFailed
  .error requestId errorCode error.message

def isExactLoopbackUrl (url : Url) : Bool :=
  url.hostStr == some "127.0.0.1" || url.hostStr == some "::1"

def loopbackUrls (p : Parsers) (jobs : List PrintJobInput) : List Url :=
  (((jobs.filter (fun job => job.format = .html)).filterMap PrintJobInput.fileUrl).filterMap
    (fun fileUrl => (validateHtmlFileUrl p fileUrl).toOption)).filter isExactLoopbackUrl

def htmlLocalOrigin (p : Parsers) (jobs : List PrintJobInput) (origin : Option String) :
    Except String (Option String) :=
  if (loopbackUrls p jobs).isEmpty then .ok none
  else match origin with
    | none => .error "loopback HTML URLs require a matching loopback WebSocket Origin"
    | some origin =>
      match (p.url origin).filter isExactLoopbackUrl with
      | none => .error "loopback HTML URLs require a matching loopback WebSocket Origin"
      | some origin =>
        if (loopbackUrls p jobs).any (fun fileUrl => !fileUrl.origin.same origin.origin) then
          .error "loopback HTML URL must match the WebSocket Origin exactly"
        else .ok (some origin.origin.asciiSerialization)

section Handlers

variable (env : ServerEnv) (config : AgentConfig)

def handleGetPrintersList (requestId : String) : ServerMessage :=
  match env.printing.listPrinters with
  | .error error => printErrorResponse (some requestId) error
  | .ok printers =>
    .printersList requestId (match config.printing.defaultPrinter with
      | some defaultPrinter => printers.map
          (fun printer => { printer with isDefault := printer.name == defaultPrinter })
      | none => printers)

def handleGetPrinterInfo (requestId printerName : String) : ServerMessage :=
  match env.printing.listPrinters with
  | .error error => printErrorResponse (some requestId) error
  | .ok printers =>
    match printers.find? (fun printer => printer.name == printerName) with
    | none => printErrorResponse (some requestId) (.printerNotFound printerName)
    | some printer =>
      match env.printing.listPapers printer.name with
      | .error error => printErrorResponse (some requestId) error
      | .ok papers =>
        match env.printing.listTrays printer.name with
        | .error error => printErrorResponse (some requestId) error
        | .ok trays =>
          match env.printing.listMediaTypes printer.name with
          | .error error => printErrorResponse (some requestId) error
          | .ok mediaTypes => .printerInfo requestId
              { name := printer.name, isDefault := printer.isDefault, dpi := printer.dpi
                port := printer.port, isLocal := printer.isLocal
                isNetwork := printer.isNetwork, isVirtual := printer.isVirtual
                papers := papers, trays := trays, mediaTypes := mediaTypes }

def handleGetPrintQueue (requestId : String) (q : QueueState) : ServerMessage :=
  .printQueue requestId ((pendingJobs q).map (fun queued =>
    ⟨queued.requestId,queued.batchId,queued.job.jobId,.queued,some "queued"⟩))

def replyOnly (q : QueueState) (response : ServerMessage) : Handled :=
  ⟨.ofResponse response,q,false⟩

variable (origin : Option String)

def handlePrint (requestId : String) (job : PrintJobInput) (q : QueueState) : Handled :=
  match validateForAcceptance env.parsers job config.limits.maxFileSizeMb with
  | .error error => replyOnly q (jobValidationErrorResponse (some requestId) error)
  | .ok _ =>
    match htmlLocalOrigin env.parsers [job] origin with
    | .error message => replyOnly q (invalidMessageResponse (some requestId) message)
    | .ok htmlLocalOrigin =>
      match acceptJobWithHtmlLocalOrigin env.parsers requestId job htmlLocalOrigin q with
      | (.ok _,q') =>
        ⟨⟨.jobStatus (some requestId) job.jobId .queued (some "queued"),[job.jobId]⟩,q',true⟩
      | (.error error,q') => replyOnly q' (queueErrorResponse (some requestId) error)

def handlePrintBatch (requestId batchId : String) (jobs : List PrintJobInput)
    (q : QueueState) : Handled :=
  if config.limits.maxBatchJobs < jobs.length then
    replyOnly q (.error (some requestId) .batchTooLarge "batch contains too many jobs")
  else match checkAll
      (fun job => validateForAcceptance env.parsers job config.limits.maxFileSizeMb) jobs with
    | .error error => replyOnly q (jobValidationErrorResponse (some requestId) error)
    | .ok _ =>
      match htmlLocalOrigin env.parsers jobs origin with
      | .error message => replyOnly q (invalidMessageResponse (some requestId) message)
      | .ok htmlLocalOrigin =>
        match acceptBatchWithHtmlLocalOrigin env.parsers requestId batchId jobs
            htmlLocalOrigin q with
        | (.ok _,q') =>
          ⟨⟨.jobStatus (some requestId) batchId .queued
            (some ("batch accepted: " ++ toString jobs.length ++ " jobs queued")),
            jobs.map PrintJobInput.jobId⟩,q',true⟩
        | (.error error,q') => replyOnly q' (queueErrorResponse (some requestId) error)

def handleMessage (q : QueueState) : ClientMessage → Handled
  | .ping time => replyOnly q (.pong time "ready")
  | .getPrintersList requestId => replyOnly q (handleGetPrintersList env config requestId)
  | .getPrinterInfo requestId printerName =>
    replyOnly q (handleGetPrinterInfo env requestId printerName)
  | .getPrintQueue requestId => replyOnly q (handleGetPrintQueue requestId q)
  | .print requestId job => handlePrint env config origin requestId job q
  | .printBatch requestId batchId jobs =>
    handlePrintBatch env config origin requestId batchId jobs q

def handleClientText (text : String) (q : QueueState) : Handled :=
  match env.fromStr text with
  | .error error => replyOnly q (.error none .invalidMessage error)
  | .ok message => handleMessage env config origin q message

end Handlers

end YinShu.ClientText
