import YinShu.PrintWorker

/-!
# Temporary files after a job

When a job is done, which of its temporary files are still there? The deletions
that the worker attempts are taken to succeed. Three early returns skip a
deletion: the copy of a PDF to its `.pdf` sibling, the writing of a converted
image, and the writing of the raw file for CUPS. `Abandons` says when one of
them is taken after something was written; the files are all gone exactly when
it is not.
-/

set_option autoImplicit false

namespace YinShu.TempFiles
open YinShu.Protocol YinShu.PrintModel YinShu.PrintQueue YinShu.Settings YinShu.ErrorState
open YinShu.FileStore YinShu.TempFile YinShu.Download YinShu.Document YinShu.OfficeConversion
open YinShu.HtmlRender YinShu.Submission YinShu.PrintWorker

def downloadPath (host : Host) : TempPath := tempDownloadPath host.timestamp host.downloadUuid

def siblingPath (host : Host) : TempPath := (downloadPath host).withExtension "pdf"

def workPath (host : Host) : TempPath := (downloadPath host).withExtension "office-work"

def rawFiles : RawRoute → List TempPath
  | .cups cups => [tempRawPath cups.uuid]
  | .spooler _ => []

/-- The paths that a job can use for temporary files. -/
def temporaryFiles (host : Host) : List TempPath :=
  [downloadPath host,siblingPath host,workPath host,tempHtmlPath host.htmlUuid]++
    rawFiles host.backend.raw

/-- None of the job's temporary files is there, and no other path has appeared. -/
def CleanedUp (host : Host) (w t : World) : Prop :=
  (∀ path ∈ temporaryFiles host, t.files path = none) ∧
    ∀ path, w.files path = none → t.files path = none

def LeavesPartial (failure : Option Failure) : Prop :=
  ∃ error bytes, failure = some ⟨error,some bytes⟩

/-- The two ways in which a downloaded file leaves an unfinished PDF beside it. -/
def AbandonsPdf (host : Host) (format : SupportedFormat) (paper : PaperInfo)
    (content : Bytes) : Prop :=
  checkDocumentFormat host format content = .ok .pdf ∧ LeavesPartial host.document.copy ∨
    (checkDocumentFormat host format content = .ok .png ∨
      checkDocumentFormat host format content = .ok .jpeg) ∧
    (∃ bytes, imageDocument host.document content ⟨paper.widthMm,paper.heightMm⟩ = .ok bytes) ∧
    LeavesPartial host.document.write

def AbandonsFile (host : Host) (queuedJob : QueuedJob) (config : AgentConfig) : Prop :=
  ∃ fileUrl options content, queuedJob.job.fileUrl = some fileUrl ∧
    resolvePrintOptions queuedJob config = .ok options ∧
    fetched host.parsers config.limits host.download fileUrl = some content ∧
    AbandonsPdf host queuedJob.job.format options.paper content

def AbandonsRaw (host : Host) (queuedJob : QueuedJob) (config : AgentConfig) : Prop :=
  ∃ options data cups, resolveRawPrintOptions queuedJob config = .ok options ∧
    rawData host queuedJob config = .ok data ∧ host.backend.raw = .cups cups ∧
    cups.Abandons options

def Abandons (host : Host) (queuedJob : QueuedJob) (config : AgentConfig) : Prop :=
  match queuedJob.job.format with
  | .html | .rawHtml => False
  | .raw => AbandonsRaw host queuedJob config
  | _ => AbandonsFile host queuedJob config

/-- What a pipeline does to the files: only the listed paths are touched, all of
them are gone unless something was abandoned, and then one is still there. -/
def Settled (host : Host) (paths : List TempPath) (abandoned : Prop) (s t : Store TempPath) :
    Prop :=
  Frame paths s t ∧ (¬abandoned → ∀ path ∈ paths, t path = none) ∧
    (abandoned → ∃ path ∈ temporaryFiles host, t path ≠ none)

theorem Settled.untouched {host : Host} {paths : List TempPath} {abandoned : Prop}
    {s : Store TempPath} (h : ¬abandoned) (hs : ∀ path ∈ paths, s path = none) :
    Settled host paths abandoned s s :=
  ⟨Frame.refl paths s,fun _ => hs,fun ha => absurd ha h⟩

theorem Settled.cleanedUp_iff {host : Host} {paths : List TempPath} {abandoned : Prop}
    {w t : World} (h : Settled host paths abandoned w.files t.files)
    (hf : ∀ path ∈ temporaryFiles host, w.files path = none) :
    CleanedUp host w t ↔ ¬abandoned := by
  obtain ⟨hframe,hgone,hthere⟩ := h
  constructor
  · rintro ⟨hc,-⟩ ha
    obtain ⟨path,hp,ht⟩ := hthere ha
    exact ht (hc path hp)
  · intro ha
    have hnew : ∀ path, w.files path = none → t.files path = none := by
      intro path hw
      by_cases hp : path ∈ paths
      · exact hgone ha path hp
      · rw [hframe path hp]
        exact hw
    exact ⟨fun path hp => hnew path (hf path hp),hnew⟩

section Programs

variable (host : Host) (queuedJob : QueuedJob) {w : World}

theorem onFiles_rule {ε α : Type} {m : EStateM ε (Store TempPath) α}
    {Q : α → Store TempPath → Prop} {E : ε → Store TempPath → Prop}
    (h : Ensures m w.files Q E) :
    Ensures (onFiles m) w (fun a t => Q a t.files) (fun e t => E e t.files) :=
  Ensures.zoom h

theorem cleanupFile_rule (path : TempPath) (site : Deletion)
    (hd : ∀ site, host.deletions site = none) :
    Ensures (cleanupFile host path site) w (fun _ t => t.files = w.files.remove path)
      (fun _ _ => False) :=
  onFiles_rule (E := fun _ _ => False) (ignore_delete_rule w.files path (hd site))

theorem recordPrint_files (request : PrintRequest) (result : Except PrintError PrintSubmission) :
    Ensures (recordPrint request result) w (fun _ t => t.files = w.files)
      (fun _ t => t.files = w.files) := by
  apply ensures_modify_bind
  refine (ofExcept_rule _ _).mono ?_ ?_
  · rintro _ _ ⟨-,rfl⟩
    rfl
  · rintro _ _ ⟨-,rfl⟩
    rfl

/-- Reporting and tracking do not touch the files; only the call itself may. -/
theorem submitAndTrack_files (log : JobStatus → String → Work PUnit)
    (call : Work PrintSubmission) (track : PrintSubmission → PrintTrackingOutcome)
    (P : Store TempPath → Prop)
    (hlog : ∀ status message t, Ensures (log status message) t
      (fun _ u => u.files = t.files) (fun _ _ => False))
    (hcall : Ensures call w (fun _ t => P t.files) (fun _ t => P t.files)) :
    Ensures (submitAndTrack log call track) w (fun _ t => P t.files) (fun _ t => P t.files) := by
  refine hcall.bind ?_ (fun _ _ h => h)
  intro submission t ht
  refine (hlog _ _ t).bind ?_ (by simp)
  intro _ u hu
  split
  · refine (hlog _ _ u).mono ?_ (by simp)
    intro _ v hv
    rw [hv,hu]
    exact ht
  · refine ensures_pure ?_
    rw [hu]
    exact ht

theorem submitPdfAndTrack_files (options : PrintOptions) (pdfPath : TempPath) :
    Ensures (submitPdfAndTrack host queuedJob options pdfPath) w
      (fun _ t => t.files = w.files) (fun _ t => t.files = w.files) := by
  apply ensures_modify_bind
  refine submitAndTrack_files _ _ _ (fun files => files = w.files) ?_ ?_
  · intro status message t
    exact ensures_modify rfl
  · exact recordPrint_files _ _

theorem printRaw_files (P : Store TempPath → Prop) (data : Bytes) (options : RawPrintOptions)
    (h : Ensures (host.backend.printRaw host.deletions data options) w.files
      (fun _ t => P t) (fun _ t => P t)) :
    Ensures (printRaw host data options) w (fun _ t => P t.files) (fun _ t => P t.files) := by
  refine Ensures.bind ((onFiles_rule h).attempt (F := fun _ _ => False)
    (R := fun _ t => P t.files) (fun _ _ h => h) (fun _ _ h => h)) ?_ (by simp)
  intro result t ht
  refine (recordPrint_files _ result).mono ?_ ?_
  · intro _ u hu
    rw [hu]
    exact ht
  · intro _ u hu
    rw [hu]
    exact ht

end Programs

section Raw

variable (host : Host) (queuedJob : QueuedJob) (config : AgentConfig) {w : World}

theorem abandonsRaw_iff {options : RawPrintOptions} {data : Bytes}
    (ho : resolveRawPrintOptions queuedJob config = .ok options)
    (hdata : rawData host queuedJob config = .ok data) :
    AbandonsRaw host queuedJob config ↔
      ∃ cups, host.backend.raw = .cups cups ∧ cups.Abandons options := by
  constructor
  · rintro ⟨options',data',cups,ho',-,hc,ha⟩
    rw [ho] at ho'
    cases ho'
    exact ⟨cups,hc,ha⟩
  · rintro ⟨cups,hc,ha⟩
    exact ⟨options,data,cups,ho,hdata,hc,ha⟩

theorem backendRaw_settled (data : Bytes) (options : RawPrintOptions) {s : Store TempPath}
    (hd : ∀ site, host.deletions site = none)
    (hs : ∀ path ∈ temporaryFiles host, s path = none) :
    Ensures (host.backend.printRaw host.deletions data options) s
      (fun _ t => Settled host (rawFiles host.backend.raw)
        (∃ cups, host.backend.raw = .cups cups ∧ cups.Abandons options) s t)
      (fun _ t => Settled host (rawFiles host.backend.raw)
        (∃ cups, host.backend.raw = .cups cups ∧ cups.Abandons options) s t) := by
  unfold PrintBackend.printRaw
  cases hraw : host.backend.raw with
  | spooler submit =>
    have hno : ¬∃ cups, RawRoute.spooler submit = .cups cups ∧ cups.Abandons options := by
      rintro ⟨cups,h,-⟩
      simp at h
    refine (ofExcept_rule _ s).mono ?_ ?_
    · rintro _ t ⟨-,rfl⟩
      exact Settled.untouched hno (by simp [rawFiles])
    · rintro _ t ⟨-,rfl⟩
      exact Settled.untouched hno (by simp [rawFiles])
  | cups cups =>
    have hmem : tempRawPath cups.uuid ∈ temporaryFiles host := by
      simp [temporaryFiles,hraw,rawFiles]
    have hab : (∃ c, RawRoute.cups cups = .cups c ∧ c.Abandons options) ↔
        cups.Abandons options := by
      simp
    have hpost : ∀ t : Store TempPath, (t (tempRawPath cups.uuid) = none ↔
        ¬cups.Abandons options) ∧ Frame [tempRawPath cups.uuid] s t →
        Settled host (rawFiles (.cups cups))
          (∃ c, RawRoute.cups cups = .cups c ∧ c.Abandons options) s t := by
      rintro t ⟨hi,hf⟩
      rw [hab]
      refine ⟨hf,fun hn path hp => ?_,fun ha => ⟨_,hmem,fun ht => hi.mp ht ha⟩⟩
      rw [List.mem_singleton.mp hp]
      exact hi.mpr hn
    exact (cupsPrintRaw_rule cups data options (hd _) (hs _ hmem)).mono
      (fun _ t h => hpost t h) (fun _ t h => hpost t h)

theorem printRawJob_settled (options : RawPrintOptions)
    (ho : resolveRawPrintOptions queuedJob config = .ok options)
    (hd : ∀ site, host.deletions site = none)
    (hs : ∀ path ∈ temporaryFiles host, w.files path = none) :
    Ensures (printRawJob host queuedJob options config) w
      (fun _ t => Settled host (rawFiles host.backend.raw)
        (AbandonsRaw host queuedJob config) w.files t.files)
      (fun _ t => Settled host (rawFiles host.backend.raw)
        (AbandonsRaw host queuedJob config) w.files t.files) := by
  refine (ofExcept_rule _ w).bind ?_ ?_
  · rintro data w ⟨hdata,rfl⟩
    rw [abandonsRaw_iff host queuedJob config ho hdata]
    apply ensures_modify_bind
    refine submitAndTrack_files _ _ _ (fun files => Settled host _ _ w.files files) ?_ ?_
    · intro status message t
      exact ensures_modify rfl
    · exact printRaw_files host _ data options (backendRaw_settled host data options hd hs)
  · rintro error w ⟨hdata,rfl⟩
    refine Settled.untouched ?_ ?_
    · rintro ⟨_,data,_,_,h,_⟩
      rw [hdata] at h
      cases h
    · intro path hp
      exact hs path (List.mem_append_right _ hp)

end Raw

section Html

variable (host : Host) (queuedJob : QueuedJob) {w : World}

theorem render_rule (request : HtmlRenderRequest) :
    Ensures (render host request) w
      (fun r t => r = (host.render request).result ∧
        t.files = (host.render request).store request.outputPath w.files)
      (fun _ _ => False) :=
  ensures_modify_bind (ensures_pure ⟨rfl,rfl⟩)

theorem cleanupRendering_rule (renderedPath outputPath : TempPath) {s : Store TempPath}
    (hd : ∀ site, host.deletions site = none) (hf : Frame [outputPath,renderedPath] s w.files) :
    Ensures (cleanupRendering host renderedPath outputPath) w
      (fun _ t => Frame [outputPath,renderedPath] s t.files ∧
        ∀ path ∈ [outputPath,renderedPath], t.files path = none)
      (fun _ _ => False) := by
  refine (cleanupFile_rule host renderedPath _ hd).bind ?_ (by simp)
  intro _ t ht
  have hft : Frame [outputPath,renderedPath] s t.files := by
    rw [ht]
    exact hf.remove (by simp)
  have hgone : t.files renderedPath = none := by
    rw [ht]
    exact remove_same _
  by_cases hne : renderedPath ≠ outputPath
  · rw [if_pos hne]
    refine (cleanupFile_rule host outputPath _ hd).mono ?_ (by simp)
    intro _ u hu
    rw [hu]
    refine ⟨hft.remove (by simp),?_⟩
    intro path hp
    by_cases ho : path = outputPath
    · rw [ho]
      exact remove_same _
    · have hr : path = renderedPath := by simpa [ho] using hp
      rw [remove_other _ ho,hr]
      exact hgone
  · rw [if_neg hne]
    have heq : renderedPath = outputPath := not_not.mp hne
    refine ensures_pure ⟨hft,?_⟩
    intro path hp
    have hr : path = renderedPath := by simpa [heq] using hp
    rw [hr]
    exact hgone

theorem printHtmlJob_settled (options : PrintOptions)
    (hd : ∀ site, host.deletions site = none) :
    Ensures (printHtmlJob host queuedJob options) w
      (fun _ t => ∃ paths, Settled host paths False w.files t.files)
      (fun _ t => ∃ paths, Settled host paths False w.files t.files) := by
  refine (ofExcept_rule _ w).bind ?_ ?_
  · rintro source w ⟨-,rfl⟩
    refine (render_rule host _).bind ?_ (by simp)
    generalize hpath : tempHtmlPath host.htmlUuid = path
    have hreq : (htmlRenderRequest host queuedJob options source).outputPath = path := hpath
    rw [hreq]
    generalize host.render (htmlRenderRequest host queuedJob options source) = rendering
    have hr := Frame.refl [path] w.files
    rintro (error|rendered) t ⟨hres,ht⟩
    · refine (cleanupFile_rule host path .failedRendering hd).bind ?_ (by simp)
      intro _ u hu
      refine ensures_throw ⟨[path],?_,?_,False.elim⟩
      · rw [hu,ht]
        simp only [Rendering.store,← hres]
        exact (hr.leave (by simp) _).remove (by simp)
      · intro _ q hq
        rw [hu,List.mem_singleton.mp hq]
        exact remove_same _
    · apply ensures_modify_bind
      have hf : Frame [path,rendered.outputPath] w.files t.files := by
        rw [ht]
        simp only [Rendering.store,← hres]
        exact ((hr.leave (by simp) _).weaken (by simp)).put (by simp) _
      have hclean : ∀ u : World, u.files = t.files →
          Ensures (cleanupRendering host rendered.outputPath path) u
            (fun _ v => ∃ paths, Settled host paths False w.files v.files) (fun _ _ => False) := by
        intro u hu
        refine (cleanupRendering_rule host _ path hd (by rw [hu]; exact hf)).mono ?_ (by simp)
        rintro _ v ⟨hfv,hgone⟩
        exact ⟨_,hfv,fun _ => hgone,False.elim⟩
      exact (submitPdfAndTrack_files host queuedJob options _).thenAlways
        (fun _ u hu => hclean u hu) (fun _ u hu => hclean u hu)
  · rintro error w ⟨-,rfl⟩
    exact ⟨[],Settled.untouched id (by simp)⟩

end Html

section File

variable (host : Host) (queuedJob : QueuedJob) {w : World} {s : Store TempPath}

theorem siblingPath_ne_work : siblingPath host ≠ workPath host :=
  withExtension_ne (by decide)

theorem downloadPath_extension : (downloadPath host).extension = "tmp" := rfl

theorem siblingPath_ne_download : siblingPath host ≠ downloadPath host := by
  apply withExtension_ne_self
  rw [downloadPath_extension]
  decide

theorem workPath_ne_download : workPath host ≠ downloadPath host := by
  apply withExtension_ne_self
  rw [downloadPath_extension]
  decide

theorem checkDocumentFormat_ok {format : SupportedFormat} {content : Bytes}
    {actual : DocumentFormat} (h : checkDocumentFormat host format content = .ok actual) :
    formatMatches format actual = true := by
  unfold checkDocumentFormat at h
  split at h
  · cases h
  · cases h
  · split at h
    · rename_i hm
      cases h
      exact hm
    · cases h

/-- Office formats match no detected document, so they never reach the two writes. -/
theorem office_abandons_nothing {format : SupportedFormat} {office : OfficeFormat}
    (h : officeFormatFromSupported format = some office) (paper : PaperInfo) (content : Bytes) :
    ¬AbandonsPdf host format paper content := by
  have hm : ∀ actual, formatMatches format actual = false := by
    intro actual
    cases format <;> simp [officeFormatFromSupported] at h <;> cases actual <;> rfl
  rintro (⟨hc,-⟩|⟨hc|hc,-⟩) <;> simpa [hm] using checkDocumentFormat_ok host hc

/-- The `.pdf` sibling after a failed preparation. -/
def Prepared (format : SupportedFormat) (paper : PaperInfo) (content : Bytes)
    (s t : Store TempPath) : Prop :=
  Frame [siblingPath host,workPath host] s t ∧ t (workPath host) = none ∧
    (t (siblingPath host) = none ↔ ¬AbandonsPdf host format paper content)

theorem normalizePdfPath_rule (hs : s (siblingPath host) = none) :
    Ensures (normalizePdfPath host (downloadPath host)) s
      (fun r t => r = siblingPath host ∧ host.document.copy = none ∧
        Frame [siblingPath host] s t)
      (fun _ t => (t (siblingPath host) = none ↔ ¬LeavesPartial host.document.copy) ∧
        Frame [siblingPath host] s t) := by
  have hx : ¬TextScan.eqIgnoreAsciiCase (downloadPath host).extension "pdf" = true := by
    rw [downloadPath_extension]
    decide
  unfold normalizePdfPath
  rw [if_neg hx]
  have hr := Frame.refl [siblingPath host] s
  refine Ensures.bind (Ensures.adapt ((copy_rule s (siblingPath host) (downloadPath host)
    host.document.copy).mono (fun _ _ h => h) ?_)) ?_ (fun _ _ h => h)
  · rintro error t ⟨left,hc,rfl⟩
    refine ⟨?_,hr.leave (by simp) left⟩
    rw [leave_same_none s left hs]
    cases left <;> simp [LeavesPartial,hc]
  · rintro _ t ⟨hc,rfl⟩
    exact ensures_pure ⟨rfl,hc,hr.put (by simp) _⟩

theorem prepareOffice_rule (office : OfficeFormat) (hd : ∀ site, host.deletions site = none) :
    Ensures (prepareOffice host (downloadPath host) office) s
      (fun r t => r.path = siblingPath host ∧ Frame [siblingPath host,workPath host] s t ∧
        t (workPath host) = none)
      (fun _ t => Frame [siblingPath host,workPath host] s t ∧ t (workPath host) = none ∧
        t (siblingPath host) = none) := by
  refine Ensures.bind (Ensures.adapt (Ensures.mono
    (officeToPdfWithConverter_rule office hd (siblingPath_ne_work host).symm) (fun _ _ h => h) ?_))
    ?_ (fun _ _ h => h)
  · rintro error t ⟨htw,hto,hf⟩
    exact ⟨hf.weaken (by simp [siblingPath,workPath]),htw,hto⟩
  · rintro converter t ⟨htw,hf,-⟩
    exact ensures_pure ⟨rfl,hf.weaken (by simp [siblingPath,workPath]),htw⟩

/-- What is at the sibling after a failed preparation of a document. -/
theorem prepareDocument_rule (format : SupportedFormat) (actual : DocumentFormat)
    (paper : PaperInfo) (content : Bytes)
    (hact : checkDocumentFormat host format content = .ok actual)
    (hc : s.bytes (downloadPath host) = content) (hs : s (siblingPath host) = none) :
    Ensures (prepareDocument host (downloadPath host) paper actual) s
      (fun r t => r.path = siblingPath host ∧ ¬AbandonsPdf host format paper content ∧
        Frame [siblingPath host] s t)
      (fun _ t => Frame [siblingPath host] s t ∧
        (t (siblingPath host) = none ↔ ¬AbandonsPdf host format paper content)) := by
  have hr := Frame.refl [siblingPath host] s
  cases actual with
  | pdf =>
    have hab : AbandonsPdf host format paper content ↔ LeavesPartial host.document.copy := by
      simp [AbandonsPdf,hact]
    rw [hab]
    refine Ensures.bind ((normalizePdfPath_rule host hs).mono (fun _ _ h => h) ?_) ?_
      (fun _ _ h => h)
    · rintro error t ⟨hi,hf⟩
      exact ⟨hf,hi⟩
    · rintro path t ⟨rfl,hcopy,hf⟩
      exact ensures_pure ⟨rfl,by simp [LeavesPartial,hcopy],hf⟩
  | png | jpeg =>
    have hab : AbandonsPdf host format paper content ↔
        (∃ bytes, imageDocument host.document content ⟨paper.widthMm,paper.heightMm⟩ =
          .ok bytes) ∧ LeavesPartial host.document.write := by
      simp [AbandonsPdf,hact]
    rw [hab]
    refine Ensures.bind (Ensures.adapt ((imageToPdf_rule host.document (downloadPath host)
      ⟨paper.widthMm,paper.heightMm⟩ (siblingPath host) s).mono (fun _ _ h => h) ?_)) ?_
      (fun _ _ h => h)
    · rw [hc]
      rintro error t (⟨e,he,rfl⟩|⟨bytes,e,left,hb,hwr,rfl⟩)
      · exact ⟨hr,iff_of_true hs (by simp [he])⟩
      · refine ⟨hr.leave (by simp) left,?_⟩
        rw [leave_same_none s left hs]
        cases left <;> simp [LeavesPartial,hb,hwr]
    · rintro _ t ⟨bytes,hb,hwr,rfl⟩
      exact ensures_pure ⟨rfl,by simp [LeavesPartial,hwr],hr.put (by simp) _⟩

theorem preparePrintablePdf_rule (format : SupportedFormat) (paper : PaperInfo)
    (content : Bytes) (hd : ∀ site, host.deletions site = none)
    (hc : s (downloadPath host) = some (.file content)) (hs : s (siblingPath host) = none)
    (hw : s (workPath host) = none) :
    Ensures (preparePrintablePdf host (downloadPath host) format paper) s
      (fun r t => r.path = siblingPath host ∧ ¬AbandonsPdf host format paper content ∧
        Frame [siblingPath host,workPath host] s t ∧ t (workPath host) = none)
      (fun _ t => Prepared host format paper content s t) := by
  have hbytes : s.bytes (downloadPath host) = content := by
    simp [Store.bytes,hc]
  have hr := Frame.refl [siblingPath host,workPath host] s
  apply ensures_get_bind
  rw [hbytes]
  cases hoff : officeFormatFromSupported format with
  | some office =>
    have hno := office_abandons_nothing host hoff paper content
    refine (ofExcept_rule _ s).bind ?_ ?_
    · rintro _ s ⟨-,rfl⟩
      refine (prepareOffice_rule host office hd).mono ?_ ?_
      · rintro prepared t ⟨hp,hf,htw⟩
        exact ⟨hp,hno,hf,htw⟩
      · rintro error t ⟨hf,htw,hts⟩
        exact ⟨hf,htw,iff_of_true hts hno⟩
    · rintro error t ⟨-,rfl⟩
      exact ⟨hr,hw,iff_of_true hs hno⟩
  | none =>
    refine (ofExcept_rule _ s).bind ?_ ?_
    · rintro actual s ⟨hact,rfl⟩
      have hwork : ∀ t : Store TempPath, Frame [siblingPath host] s t →
          t (workPath host) = none := by
        intro t ht
        rw [ht _ (by simpa using (siblingPath_ne_work host).symm)]
        exact hw
      refine (prepareDocument_rule host format actual paper content hact hbytes hs).mono ?_ ?_
      · rintro prepared t ⟨hp,hno,hf⟩
        exact ⟨hp,hno,hf.weaken (by simp),hwork t hf⟩
      · rintro error t ⟨hf,hi⟩
        exact ⟨hf.weaken (by simp),hwork t hf,hi⟩
    · rintro error t ⟨hact,rfl⟩
      refine ⟨hr,hw,iff_of_true hs ?_⟩
      simp [AbandonsPdf,hact]

theorem pushOfficeConverter_files (options : PrintOptions) (converter : Option String) :
    Ensures (pushOfficeConverter host queuedJob options converter) w
      (fun _ t => t.files = w.files) (fun _ _ => False) := by
  cases converter with
  | some converter => exact ensures_modify rfl
  | none => exact ensures_pure rfl

theorem printDownloadedFile_prepared (options : PrintOptions) (content : Bytes)
    (hd : ∀ site, host.deletions site = none)
    (hc : w.files (downloadPath host) = some (.file content))
    (hs : w.files (siblingPath host) = none) (hw : w.files (workPath host) = none) :
    Ensures (printDownloadedFile host queuedJob options (downloadPath host)) w
      (fun _ t => Prepared host queuedJob.job.format options.paper content w.files t.files)
      (fun _ t => Prepared host queuedJob.job.format options.paper content w.files t.files) := by
  refine (onFiles_rule (preparePrintablePdf_rule host queuedJob.job.format options.paper content
    hd hc hs hw)).bind ?_ (fun _ _ h => h)
  rintro ⟨path,converter⟩ t ⟨rfl,hno,hf,htw⟩
  refine (pushOfficeConverter_files host queuedJob options converter).bind ?_ (by simp)
  intro _ u hu
  have hclean : ∀ v : World, v.files = u.files →
      Ensures (cleanupPrintable host (siblingPath host) (downloadPath host)) v
        (fun _ x => Prepared host queuedJob.job.format options.paper content w.files x.files)
        (fun _ _ => False) := by
    intro v hv
    unfold cleanupPrintable
    rw [if_pos (siblingPath_ne_download host)]
    refine (cleanupFile_rule host _ _ hd).mono ?_ (by simp)
    intro _ x hx
    rw [Prepared,hx,hv,hu]
    refine ⟨hf.remove (by simp),?_,iff_of_true (remove_same _) hno⟩
    rw [remove_other _ (siblingPath_ne_work host).symm]
    exact htw
  exact (submitPdfAndTrack_files host queuedJob options _).thenAlways
    (fun _ v hv => hclean v hv) (fun _ v hv => hclean v hv)

/-- The paths of the file pipeline. -/
def filePaths : List TempPath := [downloadPath host,siblingPath host,workPath host]

theorem filePaths_temporary : filePaths host ⊆ temporaryFiles host := by
  intro path hp
  simp only [filePaths,List.mem_cons,List.not_mem_nil,or_false] at hp
  rcases hp with rfl|rfl|rfl <;> simp [temporaryFiles]

theorem Prepared.settled {format : SupportedFormat} {paper : PaperInfo} {content : Bytes}
    {s t u v : Store TempPath} (h : Prepared host format paper content t u)
    (hf : Frame [downloadPath host] s t) (hv : v = u.remove (downloadPath host)) :
    Settled host (filePaths host) (AbandonsPdf host format paper content) s v := by
  obtain ⟨hframe,hwork,hsib⟩ := h
  have hv' : v (siblingPath host) = u (siblingPath host) := by
    rw [hv,remove_other _ (siblingPath_ne_download host)]
  refine ⟨?_,?_,?_⟩
  · rw [hv]
    refine Frame.remove ?_ (by simp [filePaths])
    exact (hf.weaken (by simp [filePaths])).trans (hframe.weaken (by simp [filePaths]))
  · intro hno path hp
    simp only [filePaths,List.mem_cons,List.not_mem_nil,or_false] at hp
    rcases hp with rfl|rfl|rfl
    · rw [hv,remove_same]
    · rw [hv']
      exact hsib.mpr hno
    · rw [hv,remove_other _ (workPath_ne_download host)]
      exact hwork
  · intro ha
    refine ⟨siblingPath host,by simp [temporaryFiles],?_⟩
    rw [hv']
    exact fun hn => hsib.mp hn ha

theorem abandonsFile_iff (config : AgentConfig) {fileUrl : String} {options : PrintOptions}
    {content : Bytes} (hurl : queuedJob.job.fileUrl = some fileUrl)
    (hopt : resolvePrintOptions queuedJob config = .ok options)
    (hfetch : fetched host.parsers config.limits host.download fileUrl = some content) :
    AbandonsFile host queuedJob config ↔
      AbandonsPdf host queuedJob.job.format options.paper content := by
  constructor
  · rintro ⟨url,options',content',hu,ho,hc,ha⟩
    rw [hurl] at hu
    cases hu
    rw [hopt] at ho
    cases ho
    rw [hfetch] at hc
    cases hc
    exact ha
  · intro ha
    exact ⟨fileUrl,options,content,hurl,hopt,hfetch,ha⟩

theorem printFileJob_settled (config : AgentConfig) (hd : ∀ site, host.deletions site = none)
    (hs : ∀ path ∈ temporaryFiles host, w.files path = none) :
    Ensures (printFileJob host queuedJob config) w
      (fun _ t => Settled host (filePaths host) (AbandonsFile host queuedJob config)
        w.files t.files)
      (fun _ t => Settled host (filePaths host) (AbandonsFile host queuedJob config)
        w.files t.files) := by
  have hdown := hs (downloadPath host) (by simp [temporaryFiles])
  have hsib := hs (siblingPath host) (by simp [temporaryFiles])
  have hwork := hs (workPath host) (by simp [temporaryFiles])
  have hstay : ¬AbandonsFile host queuedJob config →
      Settled host (filePaths host) (AbandonsFile host queuedJob config) w.files w.files :=
    fun h => Settled.untouched h (fun path hp => hs path (filePaths_temporary host hp))
  apply ensures_modify_bind
  refine (ofExcept_rule _ _).bind ?_ ?_
  · rintro fileUrl _ ⟨hurl,rfl⟩
    have hurl' : queuedJob.job.fileUrl = some fileUrl := by
      cases h : queuedJob.job.fileUrl with
      | none => simp [h] at hurl
      | some value => simpa [h] using hurl
    refine (ofExcept_rule _ _).bind ?_ ?_
    · rintro options _ ⟨hopt,rfl⟩
      refine Ensures.bind (onFiles_rule (Ensures.adapt (F := fun _ t =>
          fetched host.parsers config.limits host.download fileUrl = none ∧
            Cleared (downloadPath host) w.files t)
        (downloadToPath_rule host.parsers config.limits host.download fileUrl (hd _)
          hdown))) ?_ ?_
      · rintro path t ⟨rfl,content,hfetch,hcont,hrest⟩
        have hframe : Frame [downloadPath host] w.files t.files := hrest
        rw [abandonsFile_iff host queuedJob config hurl' hopt hfetch]
        have hprep := printDownloadedFile_prepared host queuedJob (w := t) options content hd hcont
          (by rw [hframe _ (by simpa using siblingPath_ne_download host)]; exact hsib)
          (by rw [hframe _ (by simpa using workPath_ne_download host)]; exact hwork)
        exact hprep.thenCleanup (fun _ => cleanupFile_rule host _ _ hd)
          (fun _ _ _ hu hv => hu.settled host hframe hv)
          (fun _ _ _ hu hv => hu.settled host hframe hv)
      · rintro error t ⟨hfetch,hgone,hframe⟩
        refine ⟨hframe.weaken (by simp [filePaths]),?_,?_⟩
        · intro _ path hp
          by_cases hpath : path = downloadPath host
          · rw [hpath]
            exact hgone
          · rw [hframe path (by simpa using hpath)]
            exact hs path (filePaths_temporary host hp)
        · rintro ⟨url,_,content,hu,-,hc,-⟩
          rw [hurl'] at hu
          cases hu
          rw [hfetch] at hc
          cases hc
    · rintro error _ ⟨hopt,rfl⟩
      refine hstay ?_
      rintro ⟨_,options,_,_,ho,-⟩
      rw [hopt] at ho
      cases ho
  · rintro error _ ⟨hurl,rfl⟩
    refine hstay ?_
    rintro ⟨url,_,_,hu,-⟩
    simp [hu] at hurl

end File

theorem processJobInner_settled (host : Host) (queuedJob : QueuedJob) (config : AgentConfig)
    {w : World} (hd : ∀ site, host.deletions site = none)
    (hs : ∀ path ∈ temporaryFiles host, w.files path = none) :
    Ensures (processJobInner host queuedJob config) w
      (fun _ t => ∃ paths, Settled host paths (Abandons host queuedJob config) w.files t.files)
      (fun _ t => ∃ paths, Settled host paths (Abandons host queuedJob config)
        w.files t.files) := by
  have hfile := (printFileJob_settled host queuedJob config hd hs).mono
    (fun _ _ h => (⟨_,h⟩ : ∃ paths, Settled host paths _ _ _))
    (fun _ _ h => (⟨_,h⟩ : ∃ paths, Settled host paths _ _ _))
  have hhtml : Ensures (do
      let options ← ofExcept (resolvePrintOptions queuedJob config)
      printHtmlJob host queuedJob options) w
      (fun _ t => ∃ paths, Settled host paths False w.files t.files)
      (fun _ t => ∃ paths, Settled host paths False w.files t.files) := by
    refine (ofExcept_rule _ w).bind ?_ ?_
    · rintro options w ⟨-,rfl⟩
      exact printHtmlJob_settled host queuedJob options hd
    · rintro error w ⟨-,rfl⟩
      exact ⟨[],Settled.untouched id (by simp)⟩
  have hraw : Ensures (do
      let options ← ofExcept (resolveRawPrintOptions queuedJob config)
      printRawJob host queuedJob options config) w
      (fun _ t => ∃ paths, Settled host paths (AbandonsRaw host queuedJob config) w.files t.files)
      (fun _ t => ∃ paths, Settled host paths (AbandonsRaw host queuedJob config)
        w.files t.files) := by
    refine (ofExcept_rule _ w).bind ?_ ?_
    · rintro options w ⟨ho,rfl⟩
      exact (printRawJob_settled host queuedJob config options ho hd hs).mono
        (fun _ _ h => ⟨_,h⟩) (fun _ _ h => ⟨_,h⟩)
    · rintro error w ⟨ho,rfl⟩
      refine ⟨[],Settled.untouched ?_ (by simp)⟩
      rintro ⟨options,_,_,h,-⟩
      rw [ho] at h
      cases h
  unfold processJobInner Abandons
  cases hf : queuedJob.job.format with
  | html | rawHtml => exact hhtml
  | raw => exact hraw
  | pdf | image | png | jpg | jpeg | docx | xlsx | pptx => exact hfile

/-- With fresh temporary names and deletions that succeed, a job leaves none of its
temporary files behind exactly when it abandons none. -/
theorem cleaned_up_iff (host : Host) (queuedJob : QueuedJob) (config : AgentConfig) (w : World)
    (hd : ∀ site, host.deletions site = none)
    (hs : ∀ path ∈ temporaryFiles host, w.files path = none) :
    CleanedUp host w (processJob host queuedJob config w) ↔
      ¬Abandons host queuedJob config := by
  have hi := processJobInner_settled host queuedJob config
    (w := pushLogWithPrintMetadata host queuedJob .queued "queued" none w) hd hs
  unfold Ensures at hi
  unfold processJob
  split at hi
  · rename_i a t hrun
    obtain ⟨paths,h⟩ := hi
    simp only [hrun]
    exact h.cleanedUp_iff hs
  · rename_i error t hrun
    obtain ⟨paths,h⟩ := hi
    simp only [hrun]
    exact h.cleanedUp_iff hs

section Labels

def labelText : String := "data:application/pdf;base64,JVBERi0xLjcK"

def labelUrl : WebUrl.Url where
  scheme := "data"
  hostStr := none
  port := none
  path := "application/pdf;base64,JVBERi0xLjcK"
  query := none
  asStr := labelText
  origin := .unique
  origin_http := WebUrl.data_origin_http

/-- A host on which a PDF label arrives and is printed; only the copy to the `.pdf`
sibling is left open. -/
def labelHost (copied : Option Failure) : Host where
  parsers := ⟨fun value => if value = labelText then some labelUrl else none,
    fun value => if value = "JVBERi0xLjcK" then some [0x25,0x50,0x44,0x46,0x2d,0x31,0x2e,0x37,0x0a]
      else none,fun _ => none⟩
  now _ := "2026-01-01T00:00:00Z"
  taskHistory := true
  timestamp := 1767225600000
  downloadUuid := "8a6e0804-2bd0-4672-b79d-d97027f9071a"
  htmlUuid := "e8b5a51d-11c8-4310-a6ab-367563f20686"
  deletions _ := none
  download := ⟨none,fun _ _ => .error "operation timed out",none,none,none⟩
  document := ⟨.ok 8,.ok 8,none,fun _ _ => .error "Format error decoding Png",fun _ _ => [],none,
    copied⟩
  office := ⟨none,fun _ => .invalidArchive,none,none,
    fun _ _ _ => ⟨.error .unsupportedFormat,none⟩,true⟩
  render _ := ⟨.error (.timeout 45000),none,[]⟩
  backend := ⟨fun _ _ => .ok ⟨"2026-01-01T00:00:00Z","linux-cups",none,false⟩,
    .spooler (fun _ _ => .error .unsupportedPlatform),fun _ _ => .unknown "",fun _ _ => .unknown ""⟩

def labelJob : QueuedJob where
  requestId := "REQ-LABEL"
  batchId := none
  job := {
    jobId := "LABEL-1"
    format := .pdf
    printerName := some "Zebra"
    fileUrl := some labelText
    paper := some ⟨100,150⟩ }
  htmlLocalOrigin := none

def idleWorld : World := ⟨fun _ => none,[],[],[],[]⟩

theorem cleaned_up_label :
    CleanedUp (labelHost none) idleWorld
      (processJob (labelHost none) labelJob AgentConfig.default idleWorld) := by
  refine (cleaned_up_iff (labelHost none) labelJob AgentConfig.default idleWorld
    (fun _ => rfl) (fun _ _ => rfl)).mpr ?_
  rintro ⟨fileUrl,options,content,-,-,-,⟨-,_,_,hc⟩|⟨-,-,_,_,hc⟩⟩
  · cases hc
  · cases hc

/-- A copy that runs out of space keeps a part of the document in the temporary
directory. -/
theorem partial_copy_left :
    ¬∀ (host : Host) (queuedJob : QueuedJob) (config : AgentConfig) (w : World),
      (∀ site, host.deletions site = none) →
      (∀ path ∈ temporaryFiles host, w.files path = none) →
      CleanedUp host w (processJob host queuedJob config w) := by
  intro h
  have hgone := (h (labelHost (some ⟨"No space left on device (os error 28)",
    some [0x25,0x50,0x44,0x46,0x2d]⟩)) labelJob AgentConfig.default idleWorld (fun _ => rfl)
    (fun _ _ => rfl)).1 (siblingPath (labelHost none)) (by decide)
  revert hgone
  decide +kernel

end Labels

end YinShu.TempFiles
