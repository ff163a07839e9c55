import YinShu.PrintModel
import YinShu.TempFile
import YinShu.TextScan

/-!
# Submitting to the platform print queue

The submitting and tracking calls of a print backend. A PDF is handed over by
its path. Raw data goes through a temporary file on CUPS and directly to the
spooler elsewhere; the answers of the print commands are given.
-/

set_option autoImplicit false

namespace YinShu.Submission
open YinShu.TextScan YinShu.PrintModel YinShu.ErrorState YinShu.FileStore YinShu.TempFile

structure CommandOutput where
  success : Bool
  stdout : String
  stderr : String
  deriving DecidableEq, Repr

inductive CupsPrinterAvailability where
  | available
  | unavailable
  deriving DecidableEq, Repr

/-- The printer is asked for its availability before the submission and again
after it. -/
structure CupsHost where
  rawBackendName : String
  listPrinters : Except PrintError (List PrinterInfo)
  before : CupsPrinterAvailability
  uuid : String
  create : Option String
  writeAll : Option Failure
  flush : Option Failure
  lp : Except String CommandOutput
  after : CupsPrinterAvailability
  cancel : String → Except PrintError Unit
  submittedAt : String

inductive RawRoute where
  | cups (host : CupsHost)
  | spooler (submit : Bytes → RawPrintOptions → Except PrintError PrintSubmission)

structure PrintBackend where
  printPdf : TempPath → PrintOptions → Except PrintError PrintSubmission
  raw : RawRoute
  trackSubmission : PrintSubmission → PrintOptions → PrintTrackingOutcome
  trackRawSubmission : PrintSubmission → RawPrintOptions → PrintTrackingOutcome

section Cups

variable (host : CupsHost)

def ensurePrinterExists (printerName : String) : Except PrintError Unit :=
  match host.listPrinters with
  | .error error => .error error
  | .ok printers =>
    if printers.any (fun printer => printer.name == printerName) then .ok ()
    else .error (.printerNotFound printerName)

def rejectUnavailablePrinter : Except PrintError Unit :=
  match host.before with
  | .available => .ok ()
  | .unavailable => .error .printerOffline

def writeRawTempFile (path : TempPath) (data : Bytes) :
    EStateM PrintError (Store TempPath) PUnit := do
  (create path host.create).adaptExcept (.commandFailed "raw-temp-file")
  (append path data host.writeAll).adaptExcept (.commandFailed "raw-temp-file")
  (flush path host.flush).adaptExcept (.commandFailed "raw-temp-file")

def parseLpJobId (output : String) : Option String :=
  match afterFirst "request id is ".toList output.toList with
  | none => none
  | some request =>
    (firstWord request).map (fun word => trimEndMatches '.' (String.ofList word))

/-- A printer that went offline during the submission gets its job cancelled. -/
def finalizeCupsSubmission (submission : PrintSubmission) : Except PrintError PrintSubmission :=
  match host.after,submission.systemJobId with
  | .available,_ => .ok submission
  | .unavailable,none => .ok submission
  | .unavailable,some jobId =>
    match host.cancel jobId with
    | .ok _ => .error .printerOffline
    | .error _ => .ok submission

def rawSubmission (output : CommandOutput) : Except PrintError PrintSubmission :=
  if output.success then
    let systemJobId := parseLpJobId output.stdout
    finalizeCupsSubmission host
      ⟨host.submittedAt,host.rawBackendName,systemJobId,systemJobId.isSome⟩
  else .error (.commandFailed "lp" (trim output.stderr))

def cupsPrintRaw (deletions : Deletions) (data : Bytes) (options : RawPrintOptions) :
    EStateM PrintError (Store TempPath) PrintSubmission := do
  ofExcept (ensurePrinterExists host options.printerName)
  ofExcept (rejectUnavailablePrinter host)
  let path := tempRawPath host.uuid
  writeRawTempFile host path data
  ignore (delete path (deletions .rawFile))
  let output ← ofExcept (host.lp.mapError (.commandFailed "lp"))
  ofExcept (rawSubmission host output)

end Cups

def PrintBackend.printRaw (backend : PrintBackend) (deletions : Deletions) (data : Bytes)
    (options : RawPrintOptions) : EStateM PrintError (Store TempPath) PrintSubmission :=
  match backend.raw with
  | .cups host => cupsPrintRaw host deletions data options
  | .spooler submit => ofExcept (submit data options)

/-- The temporary file of a raw submission is made and then not written out. -/
def CupsHost.Abandons (host : CupsHost) (options : RawPrintOptions) : Prop :=
  ensurePrinterExists host options.printerName = .ok () ∧ host.before = .available ∧
    host.create = none ∧ (host.writeAll.isSome = true ∨ host.flush.isSome = true)

section Rules

variable (host : CupsHost) {deletions : Deletions} {s : Store TempPath}

/-- Once the file is made it stays, whether the writing of it succeeds or not. -/
theorem writeRawTempFile_rule (path : TempPath) (data : Bytes) :
    Ensures (writeRawTempFile host path data) s
      (fun _ t => (host.create = none ∧ host.writeAll = none ∧ host.flush = none) ∧
        Frame [path] s t)
      (fun _ t => (host.create.isSome = true ∧ t = s) ∨
        host.create = none ∧ (host.writeAll.isSome = true ∨ host.flush.isSome = true) ∧
          (t path).isSome = true ∧ Frame [path] s t) := by
  have hr := Frame.refl [path] s
  refine Ensures.bind (Ensures.adapt ((create_rule s path host.create).mono (fun _ _ h => h)
    (fun _ t h => Or.inl ⟨by simp [h.1],h.2⟩))) ?_ (fun _ _ h => h)
  rintro _ _ ⟨hc,rfl⟩
  have ht : Frame [path] s (s.put path (.file [])) := hr.put (by simp) _
  refine Ensures.bind (Ensures.adapt ((append_rule _ path data host.writeAll).mono
    (fun _ _ h => h) ?_)) ?_ (fun _ _ h => h)
  · rintro error t ⟨left,hw,rfl⟩
    exact Or.inr ⟨hc,Or.inl (by simp [hw]),leave_same_isSome _ left (by simp),
      ht.leave (by simp) left⟩
  · rintro _ _ ⟨hw,rfl⟩
    have hu : Frame [path] s ((s.put path (.file [])).put path
        (.file (Store.bytes (s.put path (.file [])) path++data))) := ht.put (by simp) _
    refine Ensures.adapt ((flush_rule _ path host.flush).mono ?_ ?_)
    · rintro _ _ ⟨hf,rfl⟩
      exact ⟨⟨hc,hw,hf⟩,hu⟩
    · rintro error t ⟨left,hf,rfl⟩
      exact Or.inr ⟨hc,Or.inr (by simp [hf]),leave_same_isSome _ left (by simp),
        hu.leave (by simp) left⟩

theorem rejectUnavailablePrinter_ok :
    rejectUnavailablePrinter host = .ok () ↔ host.before = .available := by
  unfold rejectUnavailablePrinter
  cases host.before <;> simp

/-- With deletions that succeed, the temporary file survives the submission exactly
when it was abandoned. -/
theorem cupsPrintRaw_rule (data : Bytes) (options : RawPrintOptions)
    (hd : deletions .rawFile = none) (hs : s (tempRawPath host.uuid) = none) :
    Ensures (cupsPrintRaw host deletions data options) s
      (fun _ t => (t (tempRawPath host.uuid) = none ↔ ¬host.Abandons options) ∧
        Frame [tempRawPath host.uuid] s t)
      (fun _ t => (t (tempRawPath host.uuid) = none ↔ ¬host.Abandons options) ∧
        Frame [tempRawPath host.uuid] s t) := by
  unfold cupsPrintRaw
  generalize tempRawPath host.uuid = path at hs ⊢
  have hr := Frame.refl [path] s
  refine (ofExcept_rule _ s).bind ?_ ?_
  · rintro _ s ⟨he,rfl⟩
    refine (ofExcept_rule _ s).bind ?_ ?_
    · rintro _ s ⟨hb,rfl⟩
      have hbefore := (rejectUnavailablePrinter_ok host).mp hb
      refine (writeRawTempFile_rule host path data).bind ?_ ?_
      · rintro _ t ⟨⟨hc,hw,hf⟩,ht⟩
        refine (ignore_delete_rule (F := fun _ _ => False) t path hd).bind ?_ (by simp)
        rintro _ u rfl
        have hdone : (t.remove path path = none ↔ ¬host.Abandons options) ∧
            Frame [path] s (t.remove path) := by
          refine ⟨?_,ht.remove (by simp)⟩
          simp [CupsHost.Abandons,hw,hf]
        refine (ofExcept_rule _ _).bind ?_ ?_
        · rintro output _ ⟨-,rfl⟩
          refine (ofExcept_rule _ _).mono ?_ ?_
          · rintro _ _ ⟨-,rfl⟩
            exact hdone
          · rintro _ _ ⟨-,rfl⟩
            exact hdone
        · rintro _ _ ⟨-,rfl⟩
          exact hdone
      · rintro _ t (⟨hc,rfl⟩|⟨hc,hw,hp,ht⟩)
        · refine ⟨?_,hr⟩
          have hn : host.create ≠ none := by
            rintro h
            simp [h] at hc
          simp [CupsHost.Abandons,hs,hn]
        · refine ⟨?_,ht⟩
          have hn : t path ≠ none := by
            rintro h
            simp [h] at hp
          exact iff_of_false hn (not_not.mpr ⟨he,hbefore,hc,hw⟩)
    · rintro error t ⟨hb,rfl⟩
      refine ⟨iff_of_true hs ?_,hr⟩
      rintro ⟨-,hbefore,-⟩
      rw [(rejectUnavailablePrinter_ok host).mpr hbefore] at hb
      cases hb
  · rintro error t ⟨he,rfl⟩
    refine ⟨iff_of_true hs ?_,hr⟩
    rintro ⟨he',-⟩
    simp [he'] at he

end Rules

end YinShu.Submission
