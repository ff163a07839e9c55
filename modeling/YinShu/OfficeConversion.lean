import YinShu.Document

/-!
# Conversion of office documents

An office document is staged in a work directory beside the download and
converted there by a program of the host. The converter may write anything to
the output path, succeed or fail; its answer counts only when the output is a
PDF. The stale leftovers of an earlier run are removed first.
-/

set_option autoImplicit false

namespace YinShu.OfficeConversion
open YinShu.Protocol YinShu.ErrorState YinShu.FileStore YinShu.TempFile YinShu.Document

inductive OfficeFormat where
  | docx
  | xlsx
  | pptx
  deriving DecidableEq, Repr

def OfficeFormat.extension : OfficeFormat → String
  | .docx => "docx"
  | .xlsx => "xlsx"
  | .pptx => "pptx"

inductive OfficeConvertError where
  | unsupportedFormat
  | io (error : String)
  | converterUnavailable (converter reason : String)
  | convertersUnavailable (attempts : String)
  | fallbackFailed (source : OfficeConvertError) (unavailable : String)
  | timedOut (converter : String) (seconds : UInt64)
  | commandFailed (converter message : String)
  | invalidPdf (converter : String)
  deriving DecidableEq, Repr

def OfficeConvertError.message : OfficeConvertError → String
  | .unsupportedFormat => "unsupported office format"
  | .io error => error
  | .converterUnavailable converter reason =>
    "office converter unavailable: " ++ converter ++ " (" ++ reason ++ ")"
  | .convertersUnavailable attempts => "office converters unavailable: " ++ attempts
  | .fallbackFailed source unavailable =>
    source.message ++ "; unavailable before selection: " ++ unavailable
  | .timedOut converter seconds =>
    "office conversion timed out after " ++ toString seconds ++ " seconds: " ++ converter
  | .commandFailed converter message =>
    "office conversion failed via " ++ converter ++ ": " ++ message
  | .invalidPdf converter => "office converter produced an invalid PDF: " ++ converter

def officeFormatFromSupported : SupportedFormat → Option OfficeFormat
  | .docx => some .docx
  | .xlsx => some .xlsx
  | .pptx => some .pptx
  | _ => none

/-- What the archive library says of a file, and which entries it can read. -/
inductive Archive where
  | opened (readable : String → Bool)
  | invalidArchive
  | unsupportedArchive
  | io (error : String)
  | other

structure Conversion where
  result : Except OfficeConvertError String
  written : Option Bytes

structure OfficeHost where
  openFile : Option String
  archive : Bytes → Archive
  createDir : Option String
  stage : Option Failure
  convert : String → Bytes → OfficeFormat → Conversion
  readBack : Bool

variable (host : OfficeHost) (deletions : Deletions)

def detectOfficeFormat (content : Bytes) : Except OfficeConvertError (Option OfficeFormat) :=
  match host.openFile with
  | some error => .error (.io error)
  | none =>
    match host.archive content with
    | .invalidArchive | .unsupportedArchive | .other => .ok none
    | .io error => .error (.io error)
    | .opened readable =>
      if readable "word/document.xml" then .ok (some .docx)
      else if readable "xl/workbook.xml" then .ok (some .xlsx)
      else if readable "ppt/presentation.xml" then .ok (some .pptx)
      else .ok none

def stagedInputName (outputPath : TempPath) (format : OfficeFormat) : String :=
  outputPath.stem ++ "." ++ format.extension

def validatePdf (files : Store TempPath) (path : TempPath) (converter : String) :
    Except OfficeConvertError Unit :=
  match files path with
  | some (.file bytes) =>
    if host.readBack ∧ 5 < bytes.length ∧ pdfSignature.isPrefixOf bytes then .ok ()
    else .error (.invalidPdf converter)
  | _ => .error (.invalidPdf converter)

/-- The answer of the converter, once its output has been looked at. -/
def Conversion.checked (conversion : Conversion) (files : Store TempPath) (path : TempPath) :
    Except OfficeConvertError String :=
  match conversion.result with
  | .error error => .error error
  | .ok converter =>
    match validatePdf host files path converter with
    | .ok _ => .ok converter
    | .error error => .error error

def convertStaged (format : OfficeFormat) (workDir outputPath : TempPath) :
    EStateM OfficeConvertError (Store TempPath) String := do
  let files ← get
  let name := stagedInputName outputPath format
  let conversion := host.convert name (files.child workDir name) format
  modify (fun files => files.leave outputPath conversion.written)
  let files ← get
  let cleanup ← attempt (delete workDir (deletions .work))
  match conversion.checked host files outputPath with
  | .ok converter =>
    match cleanup with
    | .ok _ => pure converter
    | .error error => deleteAndThrow outputPath (deletions .output) (.io error)
  | .error error => deleteAndThrow outputPath (deletions .output) error

def officeToPdfWithConverter (inputPath : TempPath) (format : OfficeFormat)
    (outputPath : TempPath) : EStateM OfficeConvertError (Store TempPath) String := do
  let workDir := inputPath.withExtension "office-work"
  (delete workDir (deletions .staleWork)).adaptExcept .io
  (delete outputPath (deletions .staleOutput)).adaptExcept .io
  (createDir workDir host.createDir).adaptExcept .io
  match ← attempt (copyInto inputPath workDir (stagedInputName outputPath format) host.stage) with
  | .ok _ => convertStaged host deletions format workDir outputPath
  | .error error => deleteAndThrow workDir (deletions .failedStaging) (.io error)

section Rules

variable {host deletions} {inputPath outputPath workDir : TempPath} {s₀ s : Store TempPath}

/-- Neither the output nor the work directory is there, and nothing else changed. -/
def Withdrawn (workDir outputPath : TempPath) (s t : Store TempPath) : Prop :=
  t workDir = none ∧ t outputPath = none ∧ Frame [workDir,outputPath] s t

/-- The work directory is gone and the output is a PDF longer than its signature. -/
def Converted (workDir outputPath : TempPath) (s t : Store TempPath) : Prop :=
  t workDir = none ∧ Frame [workDir,outputPath] s t ∧
    ∃ bytes, t outputPath = some (.file bytes) ∧ 5 < bytes.length ∧
      pdfSignature.isPrefixOf bytes = true

/-- The output is what the converter has just written, given these staged bytes. -/
def Fresh (host : OfficeHost) (format : OfficeFormat) (staged : Bytes) (outputPath : TempPath)
    (t : Store TempPath) : Prop :=
  ∃ bytes, t outputPath = some (.file bytes) ∧
    (host.convert (stagedInputName outputPath format) staged format).written = some bytes

theorem checked_ok {conversion : Conversion} {files : Store TempPath} {converter : String}
    (h : conversion.checked host files outputPath = .ok converter) :
    ∃ bytes, files outputPath = some (.file bytes) ∧ 5 < bytes.length ∧
      pdfSignature.isPrefixOf bytes = true := by
  unfold Conversion.checked validatePdf at h
  cases hr : conversion.result with
  | error error => simp [hr] at h
  | ok name =>
    rcases hf : files outputPath with _|⟨bytes|children⟩
    · simp [hr,hf] at h
    · by_cases hv : host.readBack ∧ 5 < bytes.length ∧ pdfSignature.isPrefixOf bytes
      · exact ⟨bytes,rfl,hv.2⟩
      · simp only [hr,hf,if_neg hv] at h
        cases h
    · simp [hr,hf] at h

/-- What stands at a path that was free is what was left there. -/
theorem leave_written {written : Option Bytes} {bytes : Bytes} (ho : s outputPath = none)
    (h : s.leave outputPath written outputPath = some (.file bytes)) : written = some bytes := by
  cases written with
  | none => simp [Store.leave,ho] at h
  | some left => simpa [Store.leave] using h

theorem convertStaged_rule (format : OfficeFormat) {staged : Bytes}
    (hd : ∀ site, deletions site = none) (hne : workDir ≠ outputPath)
    (hs : Frame [workDir,outputPath] s₀ s) (ho : s outputPath = none)
    (hw : s.child workDir (stagedInputName outputPath format) = staged) :
    Ensures (convertStaged host deletions format workDir outputPath) s
      (fun _ t => Converted workDir outputPath s₀ t ∧ Fresh host format staged outputPath t)
      (fun _ t => Withdrawn workDir outputPath s₀ t) := by
  unfold convertStaged
  apply ensures_get_bind
  apply ensures_modify_bind
  apply ensures_get_bind
  rw [hw]
  have ht : Frame [workDir,outputPath] s₀ (s.leave outputPath
      (host.convert (stagedInputName outputPath format) staged format).written) :=
    hs.leave (by simp) _
  have hfresh : ∀ bytes, s.leave outputPath
      (host.convert (stagedInputName outputPath format) staged format).written outputPath =
        some (.file bytes) →
      (host.convert (stagedInputName outputPath format) staged format).written = some bytes :=
    fun _ h => leave_written ho h
  generalize s.leave outputPath _ = t at ht hfresh ⊢
  refine Ensures.bind (Ensures.attempt (delete_rule t workDir _) (F := fun _ _ => False)
    (R := fun r u => r = .ok ⟨⟩ ∧ u = t.remove workDir) ?_ ?_) ?_ (by simp)
  · rintro _ u ⟨-,rfl⟩
    exact ⟨rfl,rfl⟩
  · rintro error u ⟨he,-⟩
    simp [hd] at he
  · rintro _ _ ⟨rfl,rfl⟩
    have hr : Frame [workDir,outputPath] s₀ (t.remove workDir) := ht.remove (by simp)
    split
    · rename_i converter hc
      obtain ⟨bytes,hb,hl,hp⟩ := checked_ok hc
      have hkept : t.remove workDir outputPath = some (.file bytes) := by
        rw [remove_other t hne.symm]
        exact hb
      exact ensures_pure ⟨⟨remove_same t,hr,bytes,hkept,hl,hp⟩,bytes,hkept,hfresh bytes hb⟩
    · refine (deleteAndThrow_rule _ outputPath _ (hd _)).mono (fun _ _ h => h) ?_
      rintro _ u rfl
      refine ⟨?_,remove_same _,hr.remove (by simp)⟩
      rw [remove_other _ hne]
      exact remove_same t

theorem child_addChild_put (t : Store TempPath) (name : String) (bytes : Bytes) :
    ((t.put workDir (.dir [])).addChild workDir name bytes).child workDir name = bytes := by
  simp [Store.addChild,Store.child]

theorem bytes_put_other (t : Store TempPath) (node : Node) (h : inputPath ≠ workDir) :
    (t.put workDir node).bytes inputPath = t.bytes inputPath := by
  simp only [Store.bytes,put_other t node h]

theorem bytes_framed {paths : List TempPath} {t : Store TempPath} (hf : Frame paths s t)
    (h : inputPath ∉ paths) : t.bytes inputPath = s.bytes inputPath := by
  simp only [Store.bytes,hf inputPath h]

theorem deleteStale_rule (path : TempPath) (site : Deletion)
    (hd : ∀ site, deletions site = none) :
    Ensures ((delete path (deletions site)).adaptExcept OfficeConvertError.io) s
      (fun _ t => t = s.remove path) (fun _ _ => False) :=
  Ensures.adapt ((delete_rule s path _).mono (fun _ _ h => h.2) (fun _ _ h => by simp [hd] at h))

theorem cleared_withdrawn (hne : workDir ≠ outputPath) :
    Withdrawn workDir outputPath s ((s.remove workDir).remove outputPath) := by
  refine ⟨?_,remove_same _,((Frame.refl _ s).remove (by simp)).remove (by simp)⟩
  rw [remove_other _ hne]
  exact remove_same s

/-- Staging touches the work directory only, and stages the input when it succeeds. -/
theorem stage_rule (t : Store TempPath) (name : String) (failure : Option Failure) :
    Ensures (attempt (copyInto inputPath workDir name failure)) (t.put workDir (.dir []))
      (fun r u => Frame [workDir] (t.put workDir (.dir [])) u ∧ (r = .ok ⟨⟩ →
        u.child workDir name = (t.put workDir (.dir [])).bytes inputPath))
      (fun (_ : OfficeConvertError) _ => False) := by
  refine Ensures.attempt (copyInto_rule _ workDir inputPath name failure) ?_ ?_
  · rintro _ u ⟨-,rfl⟩
    exact ⟨(Frame.refl _ _).addChild (by simp) _ _,fun _ => child_addChild_put _ _ _⟩
  · rintro error u ⟨-,hf⟩
    exact ⟨hf,fun h => (nomatch h)⟩

/-- A conversion ends with the output it has just written or with neither file; what was
staged is the input, if it is at neither of the two paths. -/
theorem officeToPdfWithConverter_fresh (format : OfficeFormat)
    (hd : ∀ site, deletions site = none)
    (hne : inputPath.withExtension "office-work" ≠ outputPath) :
    Ensures (officeToPdfWithConverter host deletions inputPath format outputPath) s
      (fun _ t => Converted (inputPath.withExtension "office-work") outputPath s t ∧
        ∃ staged, Fresh host format staged outputPath t ∧
          (inputPath ∉ [inputPath.withExtension "office-work",outputPath] →
            staged = s.bytes inputPath))
      (fun _ t => Withdrawn (inputPath.withExtension "office-work") outputPath s t) := by
  unfold officeToPdfWithConverter
  generalize inputPath.withExtension "office-work" = workDir at hne ⊢
  refine Ensures.bind (deleteStale_rule workDir _ hd) ?_ (by simp)
  rintro _ t rfl
  refine Ensures.bind (deleteStale_rule outputPath _ hd) ?_ (by simp)
  rintro _ t rfl
  have hcleared := cleared_withdrawn (s := s) hne
  generalize (s.remove workDir).remove outputPath = t at hcleared ⊢
  refine Ensures.bind (Ensures.adapt (F := fun _ u => u = t)
    ((createDir_rule t workDir host.createDir).mono (fun _ _ h => h.2) (fun _ _ h => h.2))) ?_ ?_
  · rintro _ u rfl
    have hcreated : (t.put workDir (.dir [])) outputPath = none := by
      rw [put_other _ _ hne.symm]
      exact hcleared.2.1
    refine Ensures.bind (stage_rule t _ host.stage) ?_ (by simp)
    rintro (error|_) u ⟨hu,hchild⟩
    · have hus : Frame [workDir,outputPath] s u :=
        (hcleared.2.2.put (by simp) _).trans (hu.weaken (by simp))
      refine (deleteAndThrow_rule u workDir _ (hd _)).mono (fun _ _ h => h) ?_
      rintro _ v rfl
      refine ⟨remove_same u,?_,hus.remove (by simp)⟩
      rw [remove_other u hne.symm,hu outputPath (by simpa using hne.symm)]
      exact hcreated
    · refine (convertStaged_rule format hd hne ((hcleared.2.2.put (by simp) _).trans
        (hu.weaken (by simp))) ?_ (hchild rfl)).mono ?_ (fun _ _ h => h)
      · rw [hu outputPath (by simpa using hne.symm)]
        exact hcreated
      · rintro _ v ⟨hconv,hfresh⟩
        refine ⟨hconv,_,hfresh,fun hi => ?_⟩
        rw [bytes_put_other t _ (fun he => hi (by simp [he])),bytes_framed hcleared.2.2 hi]
  · rintro _ u rfl
    exact hcleared

theorem officeToPdfWithConverter_rule (format : OfficeFormat)
    (hd : ∀ site, deletions site = none)
    (hne : inputPath.withExtension "office-work" ≠ outputPath) :
    Ensures (officeToPdfWithConverter host deletions inputPath format outputPath) s
      (fun _ t => Converted (inputPath.withExtension "office-work") outputPath s t)
      (fun _ t => Withdrawn (inputPath.withExtension "office-work") outputPath s t) :=
  (officeToPdfWithConverter_fresh format hd hne).mono (fun _ _ h => h.1) (fun _ _ h => h)

end Rules

/-- A conversion that succeeds leaves the PDF it wrote and no work directory; one that fails
leaves neither; the input stays as it is. -/
theorem conversion_fresh_or_withdrawn (host : OfficeHost) (deletions : Deletions)
    (inputPath outputPath : TempPath) (format : OfficeFormat) (s : Store TempPath)
    (hd : ∀ site, deletions site = none)
    (hp : [inputPath,outputPath,inputPath.withExtension "office-work"].Nodup) :
    (∀ converter t, officeToPdfWithConverter host deletions inputPath format outputPath s =
        .ok converter t →
      t (inputPath.withExtension "office-work") = none ∧ t inputPath = s inputPath ∧
        ∃ bytes, t outputPath = some (.file bytes) ∧ 5 < bytes.length ∧
          pdfSignature.isPrefixOf bytes = true ∧
          (host.convert (stagedInputName outputPath format) (s.bytes inputPath) format).written =
            some bytes) ∧
    ∀ error t, officeToPdfWithConverter host deletions inputPath format outputPath s =
        .error error t →
      t outputPath = none ∧ t (inputPath.withExtension "office-work") = none ∧
        t inputPath = s inputPath := by
  simp only [List.nodup_cons,List.mem_cons,List.not_mem_nil,or_false,not_or,List.nodup_nil,
    and_true,not_false_eq_true] at hp
  obtain ⟨⟨hio,hiw⟩,how⟩ := hp
  have hin : inputPath ∉ [inputPath.withExtension "office-work",outputPath] := by
    simp [hio,hiw]
  have hr : Ensures (officeToPdfWithConverter host deletions inputPath format outputPath) s _ _ :=
    officeToPdfWithConverter_fresh format hd (Ne.symm how)
  unfold Ensures at hr
  constructor
  · intro converter t ht
    rw [ht] at hr
    obtain ⟨⟨hw,hf,bytes,hb,hl,hsig⟩,staged,⟨written,hwb,hc⟩,hstaged⟩ := hr
    obtain rfl : bytes = written := by simpa [hb] using hwb
    rw [hstaged hin] at hc
    exact ⟨hw,hf inputPath hin,bytes,hb,hl,hsig,hc⟩
  · intro error t ht
    rw [ht] at hr
    obtain ⟨hw,ho,hf⟩ := hr
    exact ⟨ho,hw,hf inputPath hin⟩

def invoicePath : TempPath := ⟨"yinshu-download-1-a","tmp"⟩

/-- A download beside the output and the work directory of an earlier run. -/
def staleStore : Store TempPath := fun path =>
  if path = invoicePath then some (.file [0x50,0x4b])
  else if path = invoicePath.withExtension "pdf" then some (.file (pdfSignature++[0x31,0x2e]))
  else if path = invoicePath.withExtension "office-work" then some (.dir [("old.docx",[0x50])])
  else none

def writingHost : OfficeHost where
  openFile := none
  archive := fun _ => .other
  createDir := none
  stage := none
  convert := fun _ _ _ => ⟨.ok "LibreOffice",some (pdfSignature++[0x31,0x2e,0x37])⟩
  readBack := true

theorem stale_output_replaced :
    ∃ t, officeToPdfWithConverter writingHost (fun _ => none) invoicePath .docx
        (invoicePath.withExtension "pdf") staleStore = .ok "LibreOffice" t ∧
      t (invoicePath.withExtension "pdf") = some (.file (pdfSignature++[0x31,0x2e,0x37])) ∧
      t (invoicePath.withExtension "office-work") = none ∧
      t invoicePath = some (.file [0x50,0x4b]) := by
  refine ⟨_,rfl,?_⟩
  obtain ⟨hw,hi,bytes,hb,-,-,hc⟩ := (conversion_fresh_or_withdrawn writingHost (fun _ => none)
    invoicePath (invoicePath.withExtension "pdf") .docx staleStore (fun _ => rfl)
    (by decide)).1 _ _ rfl
  obtain rfl := Option.some.inj hc
  exact ⟨hb,hw,hi⟩

end YinShu.OfficeConversion
