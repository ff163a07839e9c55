import YinShu.AcceptedJobs

/-!
# The options of a print call

The number of copies is checked for every job that is printed as a PDF. The
size of the paper is checked only where an image is fitted into it: neither
the acceptance of a job nor the other pipelines look at it. A print call gets
a usable paper exactly when the paper in force is usable, unless the job
cannot come that far without the check.
-/

set_option autoImplicit false

namespace YinShu.PrintablePaper
open YinShu.TextScan YinShu.WebUrl YinShu.Protocol YinShu.PrintModel YinShu.PrintQueue
open YinShu.Settings YinShu.ClientText YinShu.Acceptance YinShu.ErrorState YinShu.FileStore
open YinShu.TempFile YinShu.PaperSizes YinShu.Download YinShu.Document YinShu.OfficeConversion
open YinShu.HtmlRender YinShu.Submission YinShu.PrintWorker YinShu.WorkerCalls
open YinShu.AcceptedJobs YinShu.TempFiles

/-- The job is one that the frame has put into the queue. -/
def QueuedBy (env : ServerEnv) (config : AgentConfig) (origin : Option String) (text : String)
    (q : QueueState) (queued : QueuedJob) : Prop :=
  ∃ added, (handleClientText env config origin text q).queue.pending = q.pending++added ∧
    queued ∈ added

def ValidOptions (config : AgentConfig) (options : PrintOptions) : Prop :=
  1 ≤ options.copies ∧ options.copies ≤ config.limits.maxCopies ∧
    EffectivePaper.validate ⟨options.paper.widthMm,options.paper.heightMm⟩ = .ok ()

def ValidCall (config : AgentConfig) : PrintRequest → Prop
  | .pdf _ options => ValidOptions config options
  | .raw _ _ => True

/-- Whatever the host does, every PDF that the worker prints for the job comes with
valid options. -/
def PrintsValid (p : Parsers) (queued : QueuedJob) (config : AgentConfig) : Prop :=
  ∀ (host : Host) (w : World), host.parsers = p →
    Called (fun _ => True) (ValidCall config) w (processJob host queued config w)

def paperInForce (queued : QueuedJob) (config : AgentConfig) : Option EffectivePaper :=
  queued.job.paper.or config.printing.defaultPaper

/-- The job can come as far as the print call without anything looking at its paper. -/
structure Unchecked (p : Parsers) (queued : QueuedJob) (config : AgentConfig) : Prop where
  printer : (queued.job.printerName.or config.printing.defaultPrinter).isSome = true
  copies : 1 ≤ queued.job.copies.getD 1 ∧ queued.job.copies.getD 1 ≤ config.limits.maxCopies
  notRaw : queued.job.format ≠ .raw
  notImage : isImageFormat queued.job.format = false
  content : queued.job.format = .html ∨ queued.job.format = .rawHtml ∨
    ∃ download, Fetches p config.limits queued.job download

section Resolution

variable {queued : QueuedJob} {config : AgentConfig}

theorem resolvePrintOptions_ok {options : PrintOptions} :
    resolvePrintOptions queued config = .ok options ↔
      ∃ printerName paper, queued.job.printerName.or config.printing.defaultPrinter =
          some printerName ∧ paperInForce queued config = some paper ∧
        1 ≤ queued.job.copies.getD 1 ∧ queued.job.copies.getD 1 ≤ config.limits.maxCopies ∧
        options = ⟨printerName,paperInfoFromEffective paper,queued.job.copies.getD 1⟩ := by
  unfold resolvePrintOptions resolveFilePrintOptions resolvePrinterName paperInForce
  cases hp : queued.job.printerName.or config.printing.defaultPrinter with
  | none => simp
  | some printerName =>
    cases hq : queued.job.paper.or config.printing.defaultPaper with
    | none => simp
    | some paper =>
      generalize queued.job.copies.getD 1 = copies
      have hrange : ¬(copies = 0 ∨ config.limits.maxCopies < copies) ↔
          1 ≤ copies ∧ copies ≤ config.limits.maxCopies := by
        rw [not_or,UInt16.not_lt]
        refine and_congr_left' ?_
        rw [UInt16.le_iff_toNat_le,← UInt16.toNat_inj]
        simp
        omega
      by_cases hc : copies = 0 ∨ config.limits.maxCopies < copies
      · have := mt hrange.mpr (not_not.mpr hc)
        simp only [if_pos hc]
        constructor
        · rintro ⟨⟩
        · rintro ⟨_,_,-,-,h1,h2,-⟩
          exact absurd ⟨h1,h2⟩ this
      · obtain ⟨h1,h2⟩ := hrange.mp hc
        simp only [if_neg hc]
        constructor
        · rintro ⟨⟩
          exact ⟨printerName,paper,rfl,rfl,h1,h2,rfl⟩
        · rintro ⟨_,_,⟨⟩,⟨⟩,-,-,rfl⟩
          rfl

theorem paperInfo_validate (paper : EffectivePaper) :
    EffectivePaper.validate ⟨(paperInfoFromEffective paper).widthMm,
      (paperInfoFromEffective paper).heightMm⟩ = paper.validate := rfl

/-- A PDF that the worker asks for has valid options as soon as an unchecked paper in
force is valid. -/
theorem pdfAsked_valid {host : Host} {options : PrintOptions}
    (h : PdfAsked host queued config options)
    (hpaper : Unchecked host.parsers queued config →
      ∀ paper ∈ paperInForce queued config, paper.validate = .ok ()) :
    ValidOptions config options := by
  obtain ⟨printerName,paper,hn,hp,h1,h2,rfl⟩ := resolvePrintOptions_ok.mp h.resolved
  refine ⟨h1,h2,?_⟩
  by_cases hi : isImageFormat queued.job.format = true
  · exact h.paper hi
  · rw [paperInfo_validate]
    refine hpaper ⟨by simp [hn],⟨h1,h2⟩,h.format,by simpa using hi,?_⟩ paper hp
    exact h.content.imp_right (Or.imp_right (fun hc => ⟨host.download,hc⟩))

end Resolution

def Printed (options : PrintOptions) (w : World) : Prop :=
  ∃ call ∈ w.prints, ∃ path, call.request = .pdf path options

theorem Printed.called {options : PrintOptions} {R : HtmlRenderRequest → Prop}
    {P : PrintRequest → Prop} {w t : World} (h : Printed options w) (hc : Called R P w t) :
    Printed options t := by
  obtain ⟨call,hm,path,hp⟩ := h
  obtain ⟨-,calls,ht,-⟩ := hc
  exact ⟨call,by simp [ht,hm],path,hp⟩

section Reaching

variable (host : Host) (q : QueuedJob) (options : PrintOptions) (w : World)

theorem recordPrint_printed (path : TempPath) (result : Except PrintError PrintSubmission) :
    Ensures (recordPrint (.pdf path options) result) w (fun _ t => Printed options t)
      (fun _ t => Printed options t) := by
  apply ensures_modify_bind
  have hp : Printed options { w with prints := w.prints++[⟨.pdf path options,result⟩] } :=
    ⟨⟨.pdf path options,result⟩,by simp,path,rfl⟩
  cases result with
  | ok submission => exact ensures_pure hp
  | error error => exact ensures_throw hp

theorem submitPdfAndTrack_printed (path : TempPath) :
    Ensures (submitPdfAndTrack host q options path) w (fun _ t => Printed options t)
      (fun _ t => Printed options t) := by
  apply ensures_modify_bind
  refine (recordPrint_printed options _ path _).bind ?_ (fun _ _ h => h)
  intro submission t ht
  apply ensures_modify_bind
  split
  · exact ensures_modify ht
  · exact ensures_pure ht

theorem printHtmlJob_printed (source : HtmlSource) (hs : htmlSource host q = .ok source)
    (hr : ∀ request, ∃ rendered, (host.render request).result = .ok rendered) :
    Ensures (printHtmlJob host q options) w (fun _ t => Printed options t)
      (fun _ t => Printed options t) := by
  unfold printHtmlJob
  apply ensures_ok_bind hs
  obtain ⟨rendered,hr⟩ := hr (htmlRenderRequest host q options source)
  have hrender : Ensures (render host (htmlRenderRequest host q options source)) w
      (fun result _ => result = .ok rendered) (fun _ _ => False) :=
    ensures_modify_bind (ensures_pure hr)
  refine Ensures.bind hrender ?_ (by simp)
  rintro _ t rfl
  apply ensures_modify_bind
  exact (submitPdfAndTrack_printed host q options _ _).thenCleanup
    (fun u => cleanupRendering_called host (fun _ => True) (fun _ => True) u _ _)
    (fun _ _ _ hu h => hu.called h) (fun _ _ _ hu h => hu.called h)

/-- A download that is fetched and can be made printable is printed. -/
theorem printFileJob_printed (config : AgentConfig) (url : String) (bytes : Bytes)
    (hu : q.job.fileUrl = some url) (ho : resolvePrintOptions q config = .ok options)
    (hf : fetched host.parsers config.limits host.download url = some bytes)
    (hd : ∀ site, host.deletions site = none)
    (hw : w.files (tempDownloadPath host.timestamp host.downloadUuid) = none)
    (hprepare : ∀ s : Store TempPath,
      s (tempDownloadPath host.timestamp host.downloadUuid) = some (.file bytes) →
      Ensures (preparePrintablePdf host (tempDownloadPath host.timestamp host.downloadUuid)
        q.job.format options.paper) s (fun _ _ => True) (fun _ _ => False)) :
    Ensures (printFileJob host q config) w (fun _ t => Printed options t)
      (fun _ t => Printed options t) := by
  unfold printFileJob
  apply ensures_modify_bind
  apply ensures_ok_bind (by rw [hu])
  apply ensures_ok_bind ho
  have hdownload := onFiles_called (fun _ => True) (fun _ => True)
    (pushLogWithPrintMetadata host q .downloading "downloading" none w)
    (Ensures.adapt (f := ProcessJobError.download) (F := fun _ _ => False)
      ((downloadToPath_rule host.parsers config.limits host.download url
        (hd .partialDownload) hw).mono (fun _ _ h => h) (fun _ _ h => by simp [hf] at h)))
  refine Ensures.bind hdownload ?_ (fun _ _ h => h.2.elim)
  rintro _ t ⟨-,rfl,fetchedBytes,hb,ht,-⟩
  obtain rfl : bytes = fetchedBytes := Option.some.inj (hf.symm.trans hb)
  have hprinted : Ensures (printDownloadedFile host q options
      (tempDownloadPath host.timestamp host.downloadUuid)) t (fun _ u => Printed options u)
      (fun _ u => Printed options u) := by
    refine (onFiles_called (fun _ => True) (fun _ => True) t (hprepare t.files ht)).bind ?_
      (fun _ _ h => h.2.elim)
    intro printable u _
    have hlog : Ensures (pushOfficeConverter host q options printable.officeConverter) u
        (fun _ _ => True) (fun _ _ => False) := by
      cases printable.officeConverter with
      | some converter => exact ensures_modify trivial
      | none => exact ensures_pure trivial
    refine hlog.bind ?_ (by simp)
    intro _ v _
    exact (submitPdfAndTrack_printed host q options v _).thenCleanup
      (fun x => cleanupPrintable_called host (fun _ => True) (fun _ => True) x _ _)
      (fun _ _ _ hx h => hx.called h) (fun _ _ _ hx h => hx.called h)
  exact hprinted.thenCleanup
    (fun u => cleanupFile_called host (fun _ => True) (fun _ => True) u _ _)
    (fun _ _ _ hu h => hu.called h) (fun _ _ _ hu h => hu.called h)

end Reaching

section Willing

/-- The entry by which an archive is told to be of the format. -/
def officeEntry : SupportedFormat → String
  | .docx => "word/document.xml"
  | .xlsx => "xl/workbook.xml"
  | .pptx => "ppt/presentation.xml"
  | _ => ""

def convertedPdf : Bytes := [0x25,0x50,0x44,0x46,0x2d,0x31,0x2e,0x37,0x0a]

/-- A host on which the given download takes place and everything after it succeeds. -/
def willingHost (p : Parsers) (format : SupportedFormat) (download : DownloadHost) : Host :=
  { labelHost none with
    parsers := p
    download := download
    office := ⟨none,fun _ => .opened (fun entry => entry == officeEntry format),none,none,
      fun _ _ _ => ⟨.ok "LibreOffice",some convertedPdf⟩,true⟩
    render := fun request => ⟨.ok ⟨"Chromium",request.outputPath⟩,none,convertedPdf⟩ }

variable (p : Parsers) (download : DownloadHost) (path : TempPath) (paper : PaperInfo)
  (s : Store TempPath)

theorem preparePdf_willing (hx : path.extension = "tmp")
    (hs : pdfSignature.isPrefixOf (s.bytes path) = true) :
    Ensures (preparePrintablePdf (willingHost p .pdf download) path .pdf paper) s
      (fun _ _ => True) (fun _ _ => False) := by
  have hcheck : checkDocumentFormat (willingHost p .pdf download) .pdf (s.bytes path) =
      .ok .pdf := by
    obtain ⟨rest,hrest⟩ := List.isPrefixOf_iff_prefix.mp hs
    rw [← hrest]
    simp [checkDocumentFormat,detectFormat,willingHost,labelHost,headerSize,pdfSignature,
      detectFormatFromBytes,formatMatches]
  have hext : eqIgnoreAsciiCase path.extension "pdf" = false := by
    rw [hx]
    decide
  unfold preparePrintablePdf
  apply ensures_get_bind
  apply ensures_ok_bind hcheck
  refine Ensures.bind (M := fun _ _ => True) (N := fun _ _ => False) ?_
    (fun _ _ _ => ensures_pure trivial) (by simp)
  unfold normalizePdfPath
  rw [hext]
  refine Ensures.bind (Ensures.adapt ((copy_rule s (path.withExtension "pdf") path none).mono
    (fun _ _ _ => trivial) ?_)) (fun _ _ _ => ensures_pure trivial) (fun _ _ h => h)
  rintro e t ⟨left,he,-⟩
  cases he

theorem convertStaged_willing (format : SupportedFormat) (officeFormat : OfficeFormat)
    (workDir outputPath : TempPath) :
    Ensures (convertStaged (willingHost p format download).office (fun _ => none) officeFormat
      workDir outputPath) s (fun _ _ => True) (fun _ _ => False) := by
  unfold convertStaged
  apply ensures_get_bind
  apply ensures_modify_bind
  apply ensures_get_bind
  refine Ensures.bind ((delete_rule _ workDir none).attempt (F := fun _ _ => False)
    (R := fun r _ => r = .ok ⟨⟩) (fun _ _ _ => rfl) (fun _ _ h => by cases h.1)) ?_ (by simp)
  rintro _ t rfl
  have hchecked : (⟨.ok "LibreOffice",some convertedPdf⟩ : Conversion).checked
      (willingHost p format download).office (s.leave outputPath (some convertedPdf))
      outputPath = .ok "LibreOffice" := by
    simp [Conversion.checked,validatePdf,Store.leave,willingHost,convertedPdf,pdfSignature]
  simp only [willingHost] at hchecked ⊢
  rw [hchecked]
  exact ensures_pure trivial

theorem officeToPdf_willing (format : SupportedFormat) (officeFormat : OfficeFormat)
    (outputPath : TempPath) :
    Ensures (officeToPdfWithConverter (willingHost p format download).office (fun _ => none) path
      officeFormat outputPath) s (fun _ _ => True) (fun _ _ => False) := by
  unfold officeToPdfWithConverter
  refine Ensures.bind (Ensures.adapt ((delete_rule _ _ none).mono (fun _ _ _ => trivial)
    (fun _ _ h => by cases h.1))) ?_ (fun _ _ h => h)
  intro _ t _
  refine Ensures.bind (Ensures.adapt ((delete_rule _ _ none).mono (fun _ _ _ => trivial)
    (fun _ _ h => by cases h.1))) ?_ (fun _ _ h => h)
  intro _ t _
  refine Ensures.bind (Ensures.adapt ((createDir_rule _ _ none).mono (fun _ _ _ => trivial)
    (fun _ _ h => by cases h.1))) ?_ (fun _ _ h => h)
  intro _ t _
  refine Ensures.bind ((copyInto_rule t _ path _ none).attempt (F := fun _ _ => False)
    (R := fun r _ => r = .ok ⟨⟩) (fun _ _ _ => rfl) ?_) ?_ (by simp)
  · rintro e u ⟨⟨left,he⟩,-⟩
    cases he
  · rintro _ u rfl
    exact convertStaged_willing p download u format officeFormat _ outputPath

theorem prepareOffice_willing (format : SupportedFormat) (officeFormat : OfficeFormat)
    (hf : officeFormatFromSupported format = some officeFormat) :
    Ensures (preparePrintablePdf (willingHost p format download) path format paper) s
      (fun _ _ => True) (fun _ _ => False) := by
  have hcheck : checkOfficeFormat (willingHost p format download) officeFormat (s.bytes path) =
      .ok () := by
    cases format <;> cases hf <;>
      simp [checkOfficeFormat,detectOfficeFormat,willingHost,officeEntry]
  unfold preparePrintablePdf
  apply ensures_get_bind
  rw [hf]
  apply ensures_ok_bind hcheck
  exact Ensures.bind (Ensures.adapt (F := fun _ _ => False)
    (officeToPdf_willing p download path s format officeFormat _))
    (fun _ _ _ => ensures_pure trivial) (fun _ _ h => h)

theorem prepare_willing (format : SupportedFormat) (hr : format ≠ .raw) (hh : format ≠ .html)
    (hw : format ≠ .rawHtml) (hi : isImageFormat format = false) (hx : path.extension = "tmp")
    (hs : format = .pdf → pdfSignature.isPrefixOf (s.bytes path) = true) :
    Ensures (preparePrintablePdf (willingHost p format download) path format paper) s
      (fun _ _ => True) (fun _ _ => False) := by
  cases format with
  | pdf => exact preparePdf_willing p download path paper s hx (hs rfl)
  | docx | xlsx | pptx => exact prepareOffice_willing p download path paper s _ _ rfl
  | image | png | jpg | jpeg => cases hi
  | raw => exact absurd rfl hr
  | html => exact absurd rfl hh
  | rawHtml => exact absurd rfl hw

end Willing

section Exactness

variable {p : Parsers} {queued : QueuedJob} {config : AgentConfig} {maxFileSizeMb : UInt64}
  {paper : EffectivePaper} {options : PrintOptions}

theorem htmlJob_printed (hv : validateForAcceptance p queued.job maxFileSizeMb = .ok ())
    (ho : resolvePrintOptions queued config = .ok options)
    (hf : queued.job.format = .html ∨ queued.job.format = .rawHtml) (download : DownloadHost)
    (w : World) :
    Ensures (processJobInner (willingHost p queued.job.format download) queued config) w
      (fun _ t => Printed options t) (fun _ t => Printed options t) := by
  have hparsers : (willingHost p queued.job.format download).parsers = p := rfl
  obtain ⟨source,hs⟩ := accepted_source hparsers hv hf
  have hprinted : Ensures (do
      let options ← ofExcept (resolvePrintOptions queued config)
      printHtmlJob (willingHost p queued.job.format download) queued options) w
      (fun _ t => Printed options t) (fun _ t => Printed options t) := by
    apply ensures_ok_bind ho
    exact printHtmlJob_printed _ queued _ w source hs (fun _ => ⟨_,rfl⟩)
  unfold processJobInner
  rcases hf with hf|hf
  · simp only [hf] at hprinted ⊢
    exact hprinted
  · simp only [hf] at hprinted ⊢
    exact hprinted

theorem processJobInner_file (host : Host) (hr : queued.job.format ≠ .raw)
    (hh : queued.job.format ≠ .html) (hw : queued.job.format ≠ .rawHtml) :
    processJobInner host queued config = printFileJob host queued config := by
  unfold processJobInner
  split <;> simp_all

theorem fileJob_printed (hu : Unchecked p queued config)
    (ho : resolvePrintOptions queued config = .ok options)
    (hh : queued.job.format ≠ .html) (hw : queued.job.format ≠ .rawHtml)
    {download : DownloadHost} (hf : Fetches p config.limits queued.job download) {w : World}
    (hfiles : w.files (downloadPath (labelHost none)) = none) :
    Ensures (processJobInner (willingHost p queued.job.format download) queued config) w
      (fun _ t => Printed options t) (fun _ t => Printed options t) := by
  obtain ⟨url,bytes,hurl,hbytes,hpdf⟩ := hf
  have hprinted : Ensures (printFileJob (willingHost p queued.job.format download) queued config)
      w (fun _ t => Printed options t) (fun _ t => Printed options t) := by
    refine printFileJob_printed _ queued options w config url bytes hurl ho hbytes
      (fun _ => rfl) hfiles ?_
    intro s hs
    apply prepare_willing p download _ options.paper s _ hu.notRaw hh hw hu.notImage rfl
    intro hpdfFormat
    have hcontent : s.bytes (tempDownloadPath
        (willingHost p queued.job.format download).timestamp
        (willingHost p queued.job.format download).downloadUuid) = bytes := by
      simp [Store.bytes,hs]
    rw [hcontent]
    exact hpdf hpdfFormat
  rw [processJobInner_file _ hu.notRaw hh hw]
  exact hprinted

/-- An unchecked job is printed with the paper in force by some host. -/
theorem unchecked_printed (hv : validateForAcceptance p queued.job maxFileSizeMb = .ok ())
    (hu : Unchecked p queued config) (hp : paperInForce queued config = some paper) :
    ∃ (host : Host) (options : PrintOptions), host.parsers = p ∧
      options.paper = paperInfoFromEffective paper ∧
      Printed options (processJob host queued config idleWorld) := by
  obtain ⟨printerName,hn⟩ := Option.isSome_iff_exists.mp hu.printer
  have ho := resolvePrintOptions_ok.mpr ⟨printerName,paper,hn,hp,hu.copies.1,hu.copies.2,rfl⟩
  have hrun : ∃ download, Ensures
      (processJobInner (willingHost p queued.job.format download) queued config)
      (pushLogWithPrintMetadata (willingHost p queued.job.format download) queued .queued "queued"
        none idleWorld)
      (fun _ t => Printed ⟨printerName,paperInfoFromEffective paper,queued.job.copies.getD 1⟩ t)
      (fun _ t =>
        Printed ⟨printerName,paperInfoFromEffective paper,queued.job.copies.getD 1⟩ t) := by
    by_cases hh : queued.job.format = .html ∨ queued.job.format = .rawHtml
    · exact ⟨(labelHost none).download,htmlJob_printed hv ho hh _ _⟩
    · rw [not_or] at hh
      obtain ⟨download,hf⟩ := (hu.content.resolve_left hh.1).resolve_left hh.2
      exact ⟨download,fileJob_printed hu ho hh.1 hh.2 hf rfl⟩
  obtain ⟨download,hrun⟩ := hrun
  refine ⟨willingHost p queued.job.format download,
    ⟨printerName,paperInfoFromEffective paper,queued.job.copies.getD 1⟩,rfl,rfl,?_⟩
  unfold Ensures at hrun
  unfold processJob
  split at hrun
  · rename_i hinner
    simp only [hinner]
    exact hrun
  · rename_i hinner
    simp only [hinner]
    exact hrun.called (called_of_eq (R := fun _ => True) (P := fun _ => True) rfl rfl)

theorem queuedBy_valid {env : ServerEnv} {origin : Option String} {text : String} {q : QueueState}
    (h : QueuedBy env config origin text q queued) :
    validateForAcceptance env.parsers queued.job config.limits.maxFileSizeMb = .ok () := by
  obtain ⟨added,hadded,hm⟩ := h
  rcases handleClientText_cases env config origin text q with hr|⟨_,_,_,jobs,_,-,ha⟩
  · rw [hr.1,List.self_eq_append_right] at hadded
    simp [hadded] at hm
  · rw [ha.queue_eq] at hadded
    obtain rfl := List.append_cancel_left hadded
    obtain ⟨job,hj,rfl⟩ := List.mem_map.mp hm
    exact ha.valid job hj

end Exactness

/-- For a job that a frame has put into the queue, every print call comes with valid
options exactly when the paper in force is valid or somewhere looked at. -/
theorem print_options_valid_iff (env : ServerEnv) (accepting : AgentConfig)
    (origin : Option String) (text : String) (q : QueueState) (queued : QueuedJob)
    (hq : QueuedBy env accepting origin text q queued) (config : AgentConfig) :
    PrintsValid env.parsers queued config ↔
      (Unchecked env.parsers queued config →
        ∀ paper ∈ paperInForce queued config, paper.validate = .ok ()) := by
  constructor
  · intro hall hu paper hp
    obtain ⟨host,options,hparsers,hpaper,call,hm,path,hcall⟩ :=
      unchecked_printed (queuedBy_valid hq) hu hp
    obtain ⟨-,calls,hprints,hvalid⟩ := hall host idleWorld hparsers
    rw [hprints] at hm
    have hv := hvalid call (by simpa [idleWorld] using hm)
    rw [hcall] at hv
    have hval := hv.2.2
    rw [hpaper] at hval
    exact hval
  · rintro hpaper host w hparsers
    have hi := processJobInner_called host queued config
      (pushLogWithPrintMetadata host queued .queued "queued" none w)
    have hvalid : ∀ t, Called (RenderAsked host queued config) (PrintAsked host queued config)
        (pushLogWithPrintMetadata host queued .queued "queued" none w) t →
        Called (fun _ => True) (ValidCall config) w t := by
      intro t ht
      refine (called_of_eq rfl rfl).trans (ht.mono (fun _ _ => trivial) ?_)
      rintro (⟨path,options⟩|⟨data,options⟩) ha
      · exact pdfAsked_valid ha (hparsers ▸ hpaper)
      · trivial
    unfold Ensures at hi
    unfold processJob
    split at hi
    · rename_i hinner
      simp only [hinner]
      exact hvalid _ hi
    · rename_i hinner
      simp only [hinner]
      exact (hvalid _ hi.1).trans (called_of_eq rfl rfl)

section Labels

/-- The label of the temporary-file examples on a paper of the given height. -/
def labelInput (height : ℚ) : PrintJobInput := { labelJob.job with paper := some ⟨100,height⟩ }

def labelEnv (height : ℚ) : ServerEnv where
  parsers := (labelHost none).parsers
  fromStr _ := .ok (.print "REQ-LABEL" (labelInput height))
  printing := ⟨.ok [],fun _ => .ok [],fun _ => .ok [],fun _ => .ok []⟩

def queuedLabel (height : ℚ) : QueuedJob := ⟨"REQ-LABEL",none,labelInput height,none⟩

/-- The label goes to the printer on a paper without height. -/
def printsFlat (call : PrintCall) : Bool :=
  match call.request with
  | .pdf _ options => options.paper.heightMm == 0
  | .raw _ _ => false

theorem flat_label_printed :
    ∃ call ∈ (processJob (labelHost none) (queuedLabel 0) AgentConfig.default idleWorld).prints,
      printsFlat call = true := by
  decide +kernel

theorem print_options_valid_label :
    PrintsValid (labelEnv 150).parsers (queuedLabel 150) AgentConfig.default := by
  refine (print_options_valid_iff (labelEnv 150) AgentConfig.default none "print" {}
    (queuedLabel 150) ⟨[queuedLabel 150],by decide +kernel,by simp⟩ AgentConfig.default).mpr ?_
  rintro - paper hp
  obtain rfl : (⟨100,150⟩ : EffectivePaper) = paper := Option.some.inj hp
  decide +kernel

/-- A label of height zero is accepted and handed to the printer with that size. -/
theorem flat_paper_reaches_printer :
    QueuedBy (labelEnv 0) AgentConfig.default none "print" {} (queuedLabel 0) ∧
      ¬PrintsValid (labelEnv 0).parsers (queuedLabel 0) AgentConfig.default := by
  refine ⟨⟨[queuedLabel 0],by decide +kernel,by simp⟩,?_⟩
  intro hall
  obtain ⟨-,calls,hprints,hvalid⟩ := hall (labelHost none) idleWorld rfl
  obtain ⟨call,hm,hflat⟩ := flat_label_printed
  rw [hprints] at hm
  have hv := hvalid call (by simpa [idleWorld] using hm)
  obtain ⟨request,result⟩ := call
  cases request with
  | pdf path options =>
    have hzero : options.paper.heightMm = 0 := by simpa [printsFlat] using hflat
    have hpaper := hv.2.2
    simp [EffectivePaper.validate,hzero] at hpaper
  | raw data options => cases hflat

end Labels

end YinShu.PrintablePaper
