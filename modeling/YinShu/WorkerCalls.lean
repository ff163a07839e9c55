import YinShu.PrintWorker
import YinShu.QueueHistory

/-!
# What the worker asks of the renderer and of the print backend

Every request that a run of the worker makes is described once: a renderer
request is built from the resolved options and the source of the job, a PDF
is handed over with the resolved options, and raw data is the decoded data of
the job. Errors that blame the message itself come from the fields of the job
alone. What acceptance has checked then decides about both.
-/

set_option autoImplicit false

namespace YinShu.WorkerCalls
open YinShu.TextScan YinShu.WebUrl YinShu.Protocol YinShu.PrintModel YinShu.PrintQueue
open YinShu.Settings YinShu.ErrorState YinShu.FileStore YinShu.TempFile YinShu.PaperSizes
open YinShu.Download YinShu.Document YinShu.OfficeConversion YinShu.HtmlRender
open YinShu.Submission YinShu.PrintWorker

/-- From one world to the next, the requests that were added obey the conditions. -/
def Called (R : HtmlRenderRequest → Prop) (P : PrintRequest → Prop) (w t : World) : Prop :=
  (∃ requests, t.renders = w.renders++requests ∧ ∀ request ∈ requests, R request) ∧
    ∃ calls : List PrintCall, t.prints = w.prints++calls ∧ ∀ call ∈ calls, P call.request

/-- Errors that do not blame the message. -/
def Blameless : ProcessJobError → Prop
  | .invalidMessage _ => False
  | .fileTooLarge => False
  | _ => True

def isImageFormat : SupportedFormat → Bool
  | .image | .png | .jpg | .jpeg => true
  | _ => false

/-- A download that brings the document of the job; a PDF has to look like one. -/
def Fetches (p : Parsers) (limits : LimitsConfig) (job : PrintJobInput)
    (download : DownloadHost) : Prop :=
  ∃ fileUrl bytes, job.fileUrl = some fileUrl ∧
    fetched p limits download fileUrl = some bytes ∧
      (job.format = .pdf → pdfSignature.isPrefixOf bytes = true)

section Relation

variable {R : HtmlRenderRequest → Prop} {P : PrintRequest → Prop} {w t u : World}

theorem Called.refl (w : World) : Called R P w w := ⟨⟨[],by simp,by simp⟩,[],by simp,by simp⟩

theorem called_of_eq (hr : t.renders = w.renders) (hp : t.prints = w.prints) :
    Called R P w t := ⟨⟨[],by simp [hr],by simp⟩,[],by simp [hp],by simp⟩

theorem Called.trans (h : Called R P w t) (h' : Called R P t u) : Called R P w u := by
  obtain ⟨⟨requests,hr,hR⟩,calls,hp,hP⟩ := h
  obtain ⟨⟨requests',hr',hR'⟩,calls',hp',hP'⟩ := h'
  refine ⟨⟨requests++requests',by rw [hr',hr,List.append_assoc],?_⟩,
    calls++calls',by rw [hp',hp,List.append_assoc],?_⟩
  · intro request hm
    exact (List.mem_append.mp hm).elim (hR request) (hR' request)
  · intro call hm
    exact (List.mem_append.mp hm).elim (hP call) (hP' call)

theorem Called.mono {R' : HtmlRenderRequest → Prop} {P' : PrintRequest → Prop}
    (h : Called R P w t) (hR : ∀ request, R request → R' request)
    (hP : ∀ request, P request → P' request) : Called R' P' w t := by
  obtain ⟨⟨requests,hr,hall⟩,calls,hp,hcalls⟩ := h
  exact ⟨⟨requests,hr,fun r hm => hR r (hall r hm)⟩,calls,hp,fun c hm => hP _ (hcalls c hm)⟩

end Relation

section Steps

variable (host : Host) (R : HtmlRenderRequest → Prop) (P : PrintRequest → Prop) (w : World)

theorem onFiles_called {ε α : Type} {m : EStateM ε (Store TempPath) α}
    {Q : α → Store TempPath → Prop} {E : ε → Store TempPath → Prop}
    (h : Ensures m w.files Q E) :
    Ensures (onFiles m) w (fun a t => Called R P w t ∧ Q a t.files)
      (fun e t => Called R P w t ∧ E e t.files) :=
  Ensures.zoom (h.mono (fun _ _ hq => ⟨called_of_eq rfl rfl,hq⟩)
    (fun _ _ he => ⟨called_of_eq rfl rfl,he⟩))

theorem cleanupFile_called (path : TempPath) (site : Deletion) :
    Ensures (cleanupFile host path site) w (fun _ t => Called R P w t) (fun _ _ => False) := by
  apply Ensures.zoom
  cases h : host.deletions site with
  | none => exact called_of_eq rfl rfl
  | some error => exact called_of_eq rfl rfl

theorem cleanupRendering_called (renderedPath outputPath : TempPath) :
    Ensures (cleanupRendering host renderedPath outputPath) w (fun _ t => Called R P w t)
      (fun _ _ => False) := by
  refine (cleanupFile_called host R P w _ _).bind ?_ (by simp)
  intro _ t ht
  split
  · exact (cleanupFile_called host R P t _ _).mono (fun _ _ h => ht.trans h) (by simp)
  · exact ensures_pure ht

theorem cleanupPrintable_called (printablePath downloadedPath : TempPath) :
    Ensures (cleanupPrintable host printablePath downloadedPath) w
      (fun _ t => Called R P w t) (fun _ _ => False) := by
  unfold cleanupPrintable
  split
  · exact cleanupFile_called host R P w _ _
  · exact ensures_pure (Called.refl w)

variable {R P}

theorem recordPrint_called {request : PrintRequest} (h : P request)
    (result : Except PrintError PrintSubmission) :
    Ensures (recordPrint request result) w (fun _ t => Called R P w t)
      (fun e t => Called R P w t ∧ Blameless e) := by
  apply ensures_modify_bind
  have hc : Called R P w { w with prints := w.prints++[⟨request,result⟩] } :=
    ⟨⟨[],by simp,by simp⟩,[⟨request,result⟩],rfl,by simpa using h⟩
  cases result with
  | ok submission => exact ensures_pure hc
  | error error => exact ensures_throw ⟨hc,trivial⟩

theorem submitAndTrack_called (log : JobStatus → String → Work PUnit)
    (call : Work PrintSubmission) (track : PrintSubmission → PrintTrackingOutcome)
    (hlog : ∀ status message t, Ensures (log status message) t (fun _ u => Called R P t u)
      (fun _ _ => False))
    (hcall : Ensures call w (fun _ t => Called R P w t)
      (fun e t => Called R P w t ∧ Blameless e)) :
    Ensures (submitAndTrack log call track) w (fun _ t => Called R P w t)
      (fun e t => Called R P w t ∧ Blameless e) := by
  refine hcall.bind ?_ (fun _ _ h => h)
  intro submission t ht
  refine (hlog _ _ t).bind ?_ (by simp)
  intro _ u hu
  split
  · exact (hlog _ _ u).mono (fun _ _ h => (ht.trans hu).trans h) (by simp)
  · exact ensures_pure (ht.trans hu)

end Steps

section Preparation

variable (host : Host) (paper : PaperInfo) (path : TempPath) (s : Store TempPath)

theorem imageDocument_paper {host : DocumentHost} {content bytes : Bytes}
    {paper : EffectivePaper} (h : imageDocument host content paper = .ok bytes) :
    paper.validate = .ok () := by
  unfold imageDocument at h
  split at h
  · cases h
  · split at h
    · cases h
    · assumption

theorem checkDocumentFormat_ok {expected : SupportedFormat} {content : Bytes}
    {actual : DocumentFormat} (h : checkDocumentFormat host expected content = .ok actual) :
    formatMatches expected actual = true := by
  unfold checkDocumentFormat at h
  split at h
  · cases h
  · cases h
  · split at h
    · cases h
      assumption
    · cases h

theorem isPrefixOf_of_take {signature content : Bytes} {k n : ℕ}
    (h : signature.isPrefixOf ((content.take k).take n) = true) :
    signature.isPrefixOf content = true := by
  rw [List.isPrefixOf_iff_prefix] at h ⊢
  exact (h.trans (List.take_prefix _ _)).trans (List.take_prefix _ _)

theorem detectFormatFromBytes_pdf {bytes : Bytes} (h : detectFormatFromBytes bytes = some .pdf) :
    pdfSignature.isPrefixOf bytes = true := by
  unfold detectFormatFromBytes at h
  split_ifs at h with hp
  · exact hp
  · cases h
  · cases h

theorem checkDocumentFormat_pdf {expected : SupportedFormat} {content : Bytes}
    (h : checkDocumentFormat host expected content = .ok .pdf) :
    pdfSignature.isPrefixOf content = true := by
  unfold checkDocumentFormat detectFormat at h
  cases hr : host.document.header with
  | error error => simp [hr] at h
  | ok bytesRead =>
    simp only [hr] at h
    split at h
    · cases h
    · cases h
    · rename_i actual hd
      split at h
      · cases h
        exact isPrefixOf_of_take (detectFormatFromBytes_pdf (Except.ok.inj hd))
      · cases h

theorem checkDocumentFormat_error {expected : SupportedFormat} {content : Bytes}
    {error : ProcessJobError} (h : checkDocumentFormat host expected content = .error error) :
    Blameless error := by
  unfold checkDocumentFormat at h
  split at h
  · cases h
    trivial
  · cases h
    trivial
  · split at h <;> cases h
    trivial

theorem checkOfficeFormat_error {expected : OfficeFormat} {content : Bytes}
    {error : ProcessJobError} (h : checkOfficeFormat host expected content = .error error) :
    Blameless error := by
  unfold checkOfficeFormat at h
  split at h
  · cases h
    trivial
  · split at h <;> cases h
    trivial

/-- Only the conversion of an image looks at the paper. -/
theorem prepareDocument_rule (actual : DocumentFormat) :
    Ensures (prepareDocument host path paper actual) s
      (fun _ _ => actual ≠ .pdf →
        EffectivePaper.validate ⟨paper.widthMm,paper.heightMm⟩ = .ok ())
      (fun e _ => Blameless e) := by
  have himage : Ensures (do
      let outputPath := path.withExtension "pdf"
      (imageToPdf host.document path ⟨paper.widthMm,paper.heightMm⟩
        outputPath).adaptExcept ProcessJobError.document
      pure (⟨outputPath,none⟩ : PreparedPdf)) s
      (fun _ _ => EffectivePaper.validate ⟨paper.widthMm,paper.heightMm⟩ = .ok ())
      (fun e _ => Blameless e) := by
    refine Ensures.bind (Ensures.adapt ((imageToPdf_rule host.document path _ _ s).mono
      (fun _ _ h => h) (fun _ _ _ => trivial))) ?_ (fun _ _ h => h)
    rintro _ t ⟨bytes,hb,-⟩
    exact ensures_pure (imageDocument_paper hb)
  cases actual with
  | pdf =>
    refine Ensures.bind (M := fun _ _ => True) (N := fun e _ => Blameless e) ?_
      (fun _ _ _ => ensures_pure (by simp)) (fun _ _ h => h)
    unfold normalizePdfPath
    split
    · exact ensures_pure trivial
    · exact Ensures.bind (Ensures.adapt ((ensures_true _ _).mono (fun _ _ h => h)
        (fun _ _ _ => trivial))) (fun _ _ _ => ensures_pure trivial) (fun _ _ h => h)
  | png => exact himage.mono (fun _ _ h _ => h) (fun _ _ h => h)
  | jpeg => exact himage.mono (fun _ _ h _ => h) (fun _ _ h => h)

/-- A document of an image format is printable only on a paper of positive size, and
a PDF only with its signature. -/
theorem preparePrintablePdf_rule (format : SupportedFormat) :
    Ensures (preparePrintablePdf host path format paper) s
      (fun _ _ => (isImageFormat format = true →
        EffectivePaper.validate ⟨paper.widthMm,paper.heightMm⟩ = .ok ()) ∧
          (format = .pdf → pdfSignature.isPrefixOf (s.bytes path) = true))
      (fun e _ => Blameless e) := by
  unfold preparePrintablePdf
  apply ensures_get_bind
  cases ho : officeFormatFromSupported format with
  | some expected =>
    refine (ofExcept_rule _ s).bind ?_ (fun _ _ h => checkOfficeFormat_error host h.1)
    rintro _ s ⟨-,rfl⟩
    refine Ensures.bind (Ensures.adapt ((ensures_true _ _).mono (fun _ _ h => h)
      (fun _ _ _ => trivial))) (fun _ _ _ => ensures_pure ?_) (fun _ _ h => h)
    cases format <;> simp_all [officeFormatFromSupported,isImageFormat]
  | none =>
    refine (ofExcept_rule _ s).bind ?_ (fun _ _ h => checkDocumentFormat_error host h.1)
    rintro actual s ⟨hc,rfl⟩
    have hm := checkDocumentFormat_ok host hc
    refine (prepareDocument_rule host paper path s actual).mono ?_ (fun _ _ h => h)
    intro _ _ h
    constructor
    · intro himage
      apply h
      rintro rfl
      cases format <;> simp_all [formatMatches,isImageFormat]
    · rintro rfl
      obtain rfl : actual = .pdf := by cases actual <;> simp_all [formatMatches]
      exact checkDocumentFormat_pdf host hc

end Preparation

section Pipelines

variable (host : Host) (q : QueuedJob) (w : World) {R : HtmlRenderRequest → Prop}
  {P : PrintRequest → Prop}

theorem submitPdfAndTrack_called (options : PrintOptions) (pdfPath : TempPath)
    (h : P (.pdf pdfPath options)) :
    Ensures (submitPdfAndTrack host q options pdfPath) w (fun _ t => Called R P w t)
      (fun e t => Called R P w t ∧ Blameless e) := by
  apply ensures_modify_bind
  refine (submitAndTrack_called _ _ _ _ ?_ (recordPrint_called _ h _)).mono
    (fun _ _ h => (called_of_eq rfl rfl).trans h)
    (fun _ _ h => ⟨(called_of_eq rfl rfl).trans h.1,h.2⟩)
  exact fun status message t => ensures_modify (called_of_eq rfl rfl)

theorem printRaw_called (data : Bytes) (options : RawPrintOptions) (h : P (.raw data options)) :
    Ensures (printRaw host data options) w (fun _ t => Called R P w t)
      (fun e t => Called R P w t ∧ Blameless e) := by
  refine Ensures.bind ((onFiles_called R P w (ensures_true _ _)).attempt
    (F := fun _ _ => False) (R := fun _ t => Called R P w t) (fun _ _ h => h.1)
    (fun _ _ h => h.1)) ?_ (by simp)
  intro result t ht
  exact (recordPrint_called t h result).mono (fun _ _ h => ht.trans h)
    (fun _ _ h => ⟨ht.trans h.1,h.2⟩)

theorem printRawJob_called (options : RawPrintOptions) (config : AgentConfig)
    (h : ∀ data, rawData host q config = .ok data → P (.raw data options)) :
    Ensures (printRawJob host q options config) w (fun _ t => Called R P w t)
      (fun e t => Called R P w t ∧ (Blameless e ∨ rawData host q config = .error e)) := by
  refine (ofExcept_rule _ w).bind ?_ ?_
  · rintro data w ⟨hd,rfl⟩
    apply ensures_modify_bind
    refine (submitAndTrack_called _ _ _ _ ?_ (printRaw_called host _ _ _ (h data hd))).mono
      (fun _ _ h => (called_of_eq rfl rfl).trans h)
      (fun _ _ h => ⟨(called_of_eq rfl rfl).trans h.1,Or.inl h.2⟩)
    exact fun status message t => ensures_modify (called_of_eq rfl rfl)
  · rintro error w ⟨he,rfl⟩
    exact ⟨Called.refl w,Or.inr he⟩

theorem printHtmlJob_called (options : PrintOptions)
    (hR : ∀ source, htmlSource host q = .ok source →
      R (htmlRenderRequest host q options source))
    (hP : ∀ path, P (.pdf path options)) :
    Ensures (printHtmlJob host q options) w (fun _ t => Called R P w t)
      (fun e t => Called R P w t ∧ (Blameless e ∨ htmlSource host q = .error e)) := by
  refine (ofExcept_rule _ w).bind ?_ ?_
  · rintro source w ⟨hs,rfl⟩
    have hrender : Ensures (render host (htmlRenderRequest host q options source)) w
        (fun _ t => Called R P w t) (fun _ _ => False) :=
      ensures_modify_bind (ensures_pure ⟨⟨[htmlRenderRequest host q options source],rfl,
        by simpa using hR source hs⟩,[],by simp,by simp⟩)
    refine hrender.bind ?_ (by simp)
    rintro (error|rendered) t ht
    · refine (cleanupFile_called host R P t _ _).bind ?_ (by simp)
      intro _ u hu
      exact ensures_throw ⟨ht.trans hu,Or.inl trivial⟩
    · apply ensures_modify_bind
      have hp : Called R P w _ := ht.trans (called_of_eq rfl rfl)
      exact (submitPdfAndTrack_called (R := R) host q _ options rendered.outputPath
        (hP _)).thenCleanup
        (fun u => cleanupRendering_called host R P u _ _)
        (fun _ _ _ hu h => hp.trans (hu.trans h))
        (fun _ _ _ hu h => ⟨hp.trans (hu.1.trans h),Or.inl hu.2⟩)
  · rintro error w ⟨he,rfl⟩
    exact ⟨Called.refl w,Or.inr he⟩

theorem printDownloadedFile_called (options : PrintOptions) (downloadedPath : TempPath)
    (hP : ∀ path, (isImageFormat q.job.format = true → EffectivePaper.validate
      ⟨options.paper.widthMm,options.paper.heightMm⟩ = .ok ()) →
      (q.job.format = .pdf → pdfSignature.isPrefixOf (w.files.bytes downloadedPath) = true) →
      P (.pdf path options)) :
    Ensures (printDownloadedFile host q options downloadedPath) w (fun _ t => Called R P w t)
      (fun e t => Called R P w t ∧ Blameless e) := by
  refine (onFiles_called R P w (preparePrintablePdf_rule host options.paper downloadedPath _
    q.job.format)).bind ?_ (fun _ _ h => h)
  rintro printable t ⟨ht,hpaper,hpdf⟩
  have hlog : Ensures (pushOfficeConverter host q options printable.officeConverter) t
      (fun _ u => Called R P w u) (fun _ _ => False) := by
    cases printable.officeConverter with
    | some converter => exact ensures_modify (ht.trans (called_of_eq rfl rfl))
    | none => exact ensures_pure ht
  refine hlog.bind ?_ (by simp)
  intro _ u hp
  exact (submitPdfAndTrack_called (R := R) host q u options printable.path
    (hP _ hpaper hpdf)).thenCleanup
    (fun v => cleanupPrintable_called host R P v _ _)
    (fun _ _ _ hv h => hp.trans (hv.trans h))
    (fun _ _ _ hv h => ⟨hp.trans (hv.1.trans h),hv.2⟩)

/-- The URL of a file job, as the worker asks for it. -/
def fileUrl (q : QueuedJob) : Except ProcessJobError String :=
  match q.job.fileUrl with
  | some fileUrl => .ok fileUrl
  | none => .error (.invalidMessage "file job requires file_url")

theorem resolvePrinterName_error {config : AgentConfig} {error : ProcessJobError}
    (h : resolvePrinterName q config = .error error) : Blameless error := by
  unfold resolvePrinterName at h
  split at h <;> cases h
  trivial

theorem resolveRawPrintOptions_error {config : AgentConfig} {error : ProcessJobError}
    (h : resolveRawPrintOptions q config = .error error) : Blameless error := by
  unfold resolveRawPrintOptions at h
  split at h
  · rename_i he
    cases h
    exact resolvePrinterName_error q he
  · cases h

theorem resolvePrintOptions_error {config : AgentConfig} {error : ProcessJobError}
    (h : resolvePrintOptions q config = .error error) : Blameless error := by
  unfold resolvePrintOptions resolveFilePrintOptions at h
  split at h
  · rename_i he
    cases h
    exact resolvePrinterName_error q he
  · split at h
    · cases h
      trivial
    · simp only at h
      split at h <;> cases h
      trivial

theorem printFileJob_called (config : AgentConfig)
    (hP : ∀ path options, resolvePrintOptions q config = .ok options →
      (isImageFormat q.job.format = true → EffectivePaper.validate
        ⟨options.paper.widthMm,options.paper.heightMm⟩ = .ok ()) →
      Fetches host.parsers config.limits q.job host.download → P (.pdf path options)) :
    Ensures (printFileJob host q config) w (fun _ t => Called R P w t)
      (fun e t => Called R P w t ∧ (Blameless e ∨ fileUrl q = .error e)) := by
  apply ensures_modify_bind
  have hstart : Called R P w (pushLogWithPrintMetadata host q .downloading "downloading" none w) :=
    called_of_eq rfl rfl
  refine (ofExcept_rule _ _).bind ?_ ?_
  · rintro url _ ⟨hurl,rfl⟩
    have hurl : q.job.fileUrl = some url := by
      split at hurl <;> cases hurl
      assumption
    refine (ofExcept_rule _ _).bind ?_ ?_
    · rintro options _ ⟨ho,rfl⟩
      refine (onFiles_called R P _ (Ensures.adapt (f := ProcessJobError.download)
        (F := fun e _ => Blameless e) ((downloadToPath_spec host.parsers config.limits host.download
          url).mono (fun _ _ h => h) (fun _ _ _ => trivial)))).bind ?_ ?_
      · rintro downloadedPath u ⟨hu,rfl,bytes,hb,hcontent,-⟩
        have hp := hstart.trans hu
        have hbytes :
            u.files.bytes (tempDownloadPath host.timestamp host.downloadUuid) = bytes := by
          simp [Store.bytes,hcontent]
        exact (printDownloadedFile_called (R := R) host q u options _
          (fun path hpaper hpdf => hP path options ho hpaper
            ⟨url,bytes,hurl,hb,fun hf => hbytes ▸ hpdf hf⟩)).thenCleanup
          (fun v => cleanupFile_called host R P v _ _)
          (fun _ _ _ hv h => hp.trans (hv.trans h))
          (fun _ _ _ hv h => ⟨hp.trans (hv.1.trans h),Or.inl hv.2⟩)
      · rintro e u ⟨hu,he⟩
        exact ⟨hstart.trans hu,Or.inl he⟩
    · rintro error _ ⟨he,rfl⟩
      exact ⟨hstart,Or.inl (resolvePrintOptions_error q he)⟩
  · rintro error _ ⟨he,rfl⟩
    exact ⟨hstart,Or.inr he⟩

end Pipelines

/-- The renderer requests of a job. -/
def RenderAsked (host : Host) (q : QueuedJob) (config : AgentConfig)
    (request : HtmlRenderRequest) : Prop :=
  ∃ options source, resolvePrintOptions q config = .ok options ∧
    htmlSource host q = .ok source ∧ request = htmlRenderRequest host q options source

/-- A PDF that is handed to the backend: an image has had its paper checked, and a
file was fetched. -/
structure PdfAsked (host : Host) (q : QueuedJob) (config : AgentConfig)
    (options : PrintOptions) : Prop where
  resolved : resolvePrintOptions q config = .ok options
  format : q.job.format ≠ .raw
  paper : isImageFormat q.job.format = true →
    EffectivePaper.validate ⟨options.paper.widthMm,options.paper.heightMm⟩ = .ok ()
  content : q.job.format = .html ∨ q.job.format = .rawHtml ∨
    Fetches host.parsers config.limits q.job host.download

def PrintAsked (host : Host) (q : QueuedJob) (config : AgentConfig) : PrintRequest → Prop
  | .pdf _ options => PdfAsked host q config options
  | .raw data options => resolveRawPrintOptions q config = .ok options ∧ q.job.format = .raw ∧
      rawData host q config = .ok data

/-- The fields of the job that a pipeline reads, in the way it reads them. -/
def Blamed (host : Host) (q : QueuedJob) (config : AgentConfig) (error : ProcessJobError) : Prop :=
  match q.job.format with
  | .raw => rawData host q config = .error error
  | .html | .rawHtml => htmlSource host q = .error error
  | _ => fileUrl q = .error error

/-- All that a run asks for, and the only way in which it blames the message. -/
theorem processJobInner_called (host : Host) (q : QueuedJob) (config : AgentConfig) (w : World) :
    Ensures (processJobInner host q config) w
      (fun _ t => Called (RenderAsked host q config) (PrintAsked host q config) w t)
      (fun e t => Called (RenderAsked host q config) (PrintAsked host q config) w t ∧
        (Blameless e ∨ Blamed host q config e)) := by
  have hfile (hn : q.job.format ≠ .raw) := printFileJob_called
    (R := RenderAsked host q config) (P := PrintAsked host q config) host q w config
    (fun _ options ho hi hc => ⟨ho,hn,hi,Or.inr (Or.inr hc)⟩)
  have hhtml (hn : q.job.format = .html ∨ q.job.format = .rawHtml) :
      Ensures (do
        let options ← ofExcept (resolvePrintOptions q config)
        printHtmlJob host q options) w
      (fun _ t => Called (RenderAsked host q config) (PrintAsked host q config) w t)
      (fun e t => Called (RenderAsked host q config) (PrintAsked host q config) w t ∧
        (Blameless e ∨ htmlSource host q = .error e)) := by
    refine (ofExcept_rule _ w).bind ?_ ?_
    · rintro options w ⟨ho,rfl⟩
      exact printHtmlJob_called host q w options (fun source hs => ⟨options,source,ho,hs,rfl⟩)
        (fun _ => ⟨ho,by rcases hn with hn|hn <;> simp [hn],
          by rcases hn with hn|hn <;> simp [hn,isImageFormat],by tauto⟩)
    · rintro error w ⟨he,rfl⟩
      exact ⟨Called.refl w,Or.inl (resolvePrintOptions_error q he)⟩
  have hraw (hf : q.job.format = .raw) : Ensures (do
      let options ← ofExcept (resolveRawPrintOptions q config)
      printRawJob host q options config) w
      (fun _ t => Called (RenderAsked host q config) (PrintAsked host q config) w t)
      (fun e t => Called (RenderAsked host q config) (PrintAsked host q config) w t ∧
        (Blameless e ∨ rawData host q config = .error e)) := by
    refine (ofExcept_rule _ w).bind ?_ ?_
    · rintro options w ⟨ho,rfl⟩
      exact printRawJob_called host q w options config (fun data hd => ⟨ho,hf,hd⟩)
    · rintro error w ⟨he,rfl⟩
      exact ⟨Called.refl w,Or.inl (resolveRawPrintOptions_error q he)⟩
  unfold processJobInner Blamed
  cases hf : q.job.format with
  | html | rawHtml => exact hhtml (by simp [hf])
  | raw => exact hraw hf
  | pdf | image | png | jpg | jpeg | docx | xlsx | pptx => exact hfile (by simp [hf])

end YinShu.WorkerCalls
