import YinShu.LoopbackGrant
import YinShu.TempFiles
import YinShu.WorkerCalls

/-!
# Acceptance and worker agree

The fields of a job are checked when it is queued and read again when it is
processed, by different code. A job that was accepted is never blamed by the
worker, and what the worker hands on is what acceptance looked at: the decoded
data, the validated URL or the inline text, and the granted origin.
-/

set_option autoImplicit false

namespace YinShu.AcceptedJobs
open YinShu.TextScan YinShu.WebUrl YinShu.Protocol YinShu.PrintModel YinShu.PrintQueue
open YinShu.QueueHistory YinShu.LoopbackGrant YinShu.Settings YinShu.ErrorState
open YinShu.HtmlRender YinShu.PrintWorker YinShu.WorkerCalls YinShu.TempFiles

/-- The library reads the serialized origin of an HTTP(S) URL back as that origin. -/
def OriginsParseBack (p : Parsers) : Prop :=
  ∀ value url, p.url value = some url → isHttp url.scheme = true → url.hostStr.isSome = true →
    ∃ back, p.url url.origin.asciiSerialization = some back ∧ back.origin = url.origin

section Agreement

variable (p : Parsers) (queued : QueuedJob)

/-- The source of a rendering is what acceptance has validated. -/
def SourceAgrees : HtmlSource → Prop
  | .url url => queued.job.format = .html ∧ ∃ fileUrl, queued.job.fileUrl = some fileUrl ∧
      validateHtmlFileUrl p fileUrl = .ok url
  | .inline html => queued.job.format = .rawHtml ∧ queued.job.html = some html

structure RenderAgrees (request : HtmlRenderRequest) : Prop where
  source : SourceAgrees p queued request.source
  granted : request.allowedLoopbackOrigin.isSome = true ↔ queued.htmlLocalOrigin.isSome = true
  same : ∀ granted ∈ request.allowedLoopbackOrigin, ∀ o ∈ queued.htmlLocalOrigin,
    o = granted.origin.asciiSerialization ∧ ∃ fileUrl url, queued.job.fileUrl = some fileUrl ∧
      p.url fileUrl = some url ∧ granted.origin.same url.origin = true
  wait : request.waitMs ≤ 30000

def PrintAgrees : PrintRequest → Prop
  | .pdf _ _ => True
  | .raw data _ => queued.job.format = .raw ∧ ∃ dataBase64,
      queued.job.dataBase64 = some dataBase64 ∧ p.base64 dataBase64 = some data

end Agreement

section Fields

variable {p : Parsers} {job : PrintJobInput} {maxFileSizeMb : UInt64}

theorem validateRaw_ok (h : validateRaw p job maxFileSizeMb = .ok ()) :
    ∃ dataBase64 bytes, job.dataBase64 = some dataBase64 ∧ p.base64 dataBase64 = some bytes ∧
      bytes.length ≤ maxBytes maxFileSizeMb := by
  unfold validateRaw at h
  split_ifs at h
  split at h
  · cases h
  · split at h
    · cases h
    · rename_i dataBase64 hd
      split at h
      · cases h
      · rename_i bytes hb
        split_ifs at h with hs
        exact ⟨dataBase64,bytes,(Option.filter_eq_some_iff.mp hd).1,hb,Nat.le_of_not_lt hs⟩

theorem validateFileJob_ok (h : validateFileJob job = .ok ()) :
    ∃ fileUrl, job.fileUrl = some fileUrl := by
  unfold validateFileJob at h
  split_ifs at h with hn
  cases hf : job.fileUrl with
  | none => simp [hf] at hn
  | some fileUrl => exact ⟨fileUrl,rfl⟩

theorem validateHtmlWait_ok (h : validateHtmlWait job = .ok ()) :
    job.waitMs.getD defaultHtmlWaitMs ≤ 30000 := by
  unfold validateHtmlWait at h
  cases hw : job.waitMs with
  | none => decide
  | some waitMs =>
    simp only [hw] at h
    split_ifs at h with hs
    exact UInt64.not_lt.mp hs

theorem validateHtmlFileJob_ok (h : validateHtmlFileJob p job = .ok ()) :
    (∃ fileUrl url, job.fileUrl = some fileUrl ∧ validateHtmlFileUrl p fileUrl = .ok url) ∧
      validateHtmlWait job = .ok () := by
  unfold validateHtmlFileJob at h
  split at h
  · cases h
  · rename_i fileUrl hf
    split at h
    · cases h
    · rename_i url hu
      split_ifs at h
      exact ⟨⟨fileUrl,url,(Option.filter_eq_some_iff.mp hf).1,hu⟩,h⟩

theorem validateRawHtml_ok (h : validateRawHtml job maxFileSizeMb = .ok ()) :
    (∃ html, job.html = some html) ∧ validateHtmlWait job = .ok () := by
  unfold validateRawHtml at h
  split_ifs at h
  split at h
  · cases h
  · rename_i html hh
    split_ifs at h
    exact ⟨⟨html,(Option.filter_eq_some_iff.mp hh).1⟩,h⟩

end Fields

section Worker

variable {host : Host} {queued : QueuedJob} {config : AgentConfig}

theorem rawData_ok {data : FileStore.Bytes} (h : rawData host queued config = .ok data) :
    ∃ dataBase64, queued.job.dataBase64 = some dataBase64 ∧
      host.parsers.base64 dataBase64 = some data := by
  unfold rawData at h
  split at h
  · cases h
  · rename_i dataBase64 hd
    split at h
    · cases h
    · rename_i bytes hb
      split_ifs at h
      cases h
      exact ⟨dataBase64,hd,hb⟩

theorem htmlSource_ok {source : HtmlSource} (h : htmlSource host queued = .ok source) :
    SourceAgrees host.parsers queued source := by
  unfold htmlSource at h
  split at h
  · rename_i hf
    split at h
    · cases h
    · rename_i fileUrl hu
      split at h
      · cases h
      · rename_i url hv
        cases h
        exact ⟨hf,fileUrl,hu,hv⟩
  · rename_i hf
    split at h
    · cases h
    · rename_i html hh
      cases h
      exact ⟨hf,hh⟩
  · cases h

theorem accepted_source {p : Parsers} {maxFileSizeMb : UInt64} (hp : host.parsers = p)
    (hv : validateForAcceptance p queued.job maxFileSizeMb = .ok ())
    (hf : queued.job.format = .html ∨ queued.job.format = .rawHtml) :
    ∃ source, htmlSource host queued = .ok source := by
  subst hp
  unfold validateForAcceptance at hv
  rcases hf with hf|hf
  · rw [hf] at hv
    obtain ⟨⟨fileUrl,url,hu,hval⟩,-⟩ := validateHtmlFileJob_ok hv
    exact ⟨.url url,by simp [htmlSource,hf,hu,hval]⟩
  · rw [hf] at hv
    obtain ⟨⟨html,hh⟩,-⟩ := validateRawHtml_ok hv
    exact ⟨.inline html,by simp [htmlSource,hf,hh]⟩

/-- The worker reads every field of an accepted job without an error. -/
theorem accepted_not_blamed
    (hv : validateForAcceptance host.parsers queued.job config.limits.maxFileSizeMb = .ok ())
    (error : ProcessJobError) : ¬Blamed host queued config error := by
  unfold Blamed
  cases hf : queued.job.format with
  | raw =>
    rw [validateForAcceptance,hf] at hv
    obtain ⟨dataBase64,bytes,hd,hb,hs⟩ := validateRaw_ok hv
    simp [rawData,hd,hb,Nat.not_lt.mpr hs]
  | html | rawHtml =>
    obtain ⟨source,hs⟩ := accepted_source rfl hv (by simp [hf])
    simp [hs]
  | pdf | image | png | jpg | jpeg | docx | xlsx | pptx =>
    rw [validateForAcceptance,hf] at hv
    obtain ⟨url,hu⟩ := validateFileJob_ok hv
    simp [fileUrl,hu]

theorem accepted_wait {p : Parsers} {maxFileSizeMb : UInt64} {source : HtmlSource}
    (hv : validateForAcceptance p queued.job maxFileSizeMb = .ok ())
    (hs : SourceAgrees p queued source) : queued.job.waitMs.getD defaultHtmlWaitMs ≤ 30000 := by
  unfold validateForAcceptance at hv
  cases source with
  | url url =>
    rw [hs.1] at hv
    exact validateHtmlWait_ok (validateHtmlFileJob_ok hv).2
  | inline html =>
    rw [hs.1] at hv
    exact validateHtmlWait_ok (validateRawHtml_ok hv).2

end Worker

section Queue

variable {p : Parsers} {op : Op} {q : QueueState} {queued : QueuedJob} {added : List QueuedJob}

/-- What a call appends to the queue are its own jobs. -/
theorem appended_jobs (h : (perform p op q).2.pending = q.pending++added)
    (hm : queued ∈ added) : queued ∈ op.jobs p := by
  rcases perform_cases p op q with ⟨error,he⟩|⟨-,he⟩|⟨-,he⟩|⟨other,rest,hp,he⟩
  · simp only [he,List.self_eq_append_right] at h
    simp [h] at hm
  · simp only [he,QueueState.enqueue,List.append_cancel_left_eq] at h
    exact h ▸ hm
  · simp only [he,List.self_eq_append_right] at h
    simp [h] at hm
  · have hlen := congrArg List.length h
    simp only [he,hp,List.length_append,List.length_cons] at hlen
    omega

theorem jobs_grant (hm : queued ∈ op.jobs p) {o : String} (ho : queued.htmlLocalOrigin = some o) :
    ∃ fileUrl url, queued.job.fileUrl = some fileUrl ∧ validateHtmlFileUrl p fileUrl = .ok url ∧
      o = url.origin.asciiSerialization := by
  have hq : ∀ r b grant jobs, queued ∈ queuedJobs p r b grant jobs →
      ∃ fileUrl url, queued.job.fileUrl = some fileUrl ∧ validateHtmlFileUrl p fileUrl = .ok url ∧
        o = url.origin.asciiSerialization := by
    intro r b grant jobs hj
    obtain ⟨job,-,rfl⟩ := List.mem_map.mp hj
    obtain ⟨fileUrl,url,hf,hv,-,hs⟩ := (htmlLocalOriginForJob_some _ _ _ _).mp ho
    exact ⟨fileUrl,url,hf,hv,hs⟩
  cases op with
  | acceptJob r job =>
    rw [List.mem_singleton.mp hm] at ho
    cases ho
  | acceptBatch r b jobs => exact hq r _ _ jobs hm
  | acceptJobWithHtmlLocalOrigin r job grant => exact hq r _ grant [job] hm
  | acceptBatchWithHtmlLocalOrigin r b jobs grant => exact hq r _ grant jobs hm
  | popNext => cases hm

/-- The granted origin that the worker passes on is the one that was queued. -/
theorem granted_origin (hp : OriginsParseBack p) (hm : queued ∈ op.jobs p) :
    ((queued.htmlLocalOrigin.bind p.url).isSome = true ↔ queued.htmlLocalOrigin.isSome = true) ∧
      ∀ granted ∈ queued.htmlLocalOrigin.bind p.url, ∀ o ∈ queued.htmlLocalOrigin,
        o = granted.origin.asciiSerialization ∧ ∃ fileUrl url,
          queued.job.fileUrl = some fileUrl ∧ p.url fileUrl = some url ∧
            granted.origin.same url.origin = true := by
  cases ho : queued.htmlLocalOrigin with
  | none => simp
  | some o =>
    obtain ⟨fileUrl,url,hf,hv,rfl⟩ := jobs_grant hm ho
    obtain ⟨hparse,hs,hh⟩ := (validateHtmlFileUrl_ok p fileUrl url).mp hv
    obtain ⟨back,hb,hback⟩ := hp fileUrl url hparse hs hh
    obtain ⟨name,hname⟩ := Option.isSome_iff_exists.mp hh
    obtain ⟨port,-,horigin⟩ := url.origin_http hs name hname
    refine ⟨by simp [hb],?_⟩
    intro granted hg o hoo
    obtain rfl : back = granted := by simpa [hb] using hg
    obtain rfl : url.origin.asciiSerialization = o := by simpa using hoo
    refine ⟨by rw [hback],fileUrl,url,hf,hparse,?_⟩
    rw [hback]
    exact (same_iff _ _).mpr ⟨_,_,_,horigin,horigin⟩

end Queue

/-- A job that was validated and queued is processed under the same limit without
being blamed, and the renderer and the backend get what was validated. -/
theorem accepted_job_agrees (p : Parsers) (hp : OriginsParseBack p) (op : Op) (q : QueueState)
    (added : List QueuedJob) (queued : QueuedJob)
    (hadded : (perform p op q).2.pending = q.pending++added) (hm : queued ∈ added)
    (maxFileSizeMb : UInt64)
    (hv : validateForAcceptance p queued.job maxFileSizeMb = .ok ())
    (host : Host) (hh : host.parsers = p) (config : AgentConfig)
    (hc : config.limits.maxFileSizeMb = maxFileSizeMb) (w : World) :
    Ensures (processJobInner host queued config) w
      (fun _ t => Called (RenderAgrees p queued) (PrintAgrees p queued) w t)
      (fun e t => Called (RenderAgrees p queued) (PrintAgrees p queued) w t ∧
        (∀ message, e ≠ .invalidMessage message) ∧ e ≠ .fileTooLarge) := by
  subst hh hc
  have hjob := appended_jobs hadded hm
  obtain ⟨hsome,hsame⟩ := granted_origin hp hjob
  have hcalled : ∀ t, Called (RenderAsked host queued config) (PrintAsked host queued config) w t →
      Called (RenderAgrees host.parsers queued) (PrintAgrees host.parsers queued) w t := by
    intro t ht
    refine ht.mono ?_ ?_
    · rintro _ ⟨options,source,-,hs,rfl⟩
      have hagree := htmlSource_ok hs
      exact ⟨hagree,hsome,hsame,accepted_wait hv hagree⟩
    · rintro (⟨path,options⟩|⟨data,options⟩) ha
      · trivial
      · exact ⟨ha.2.1,rawData_ok ha.2.2⟩
  refine (processJobInner_called host queued config w).mono (fun _ t h => hcalled t h) ?_
  rintro e t ⟨ht,he⟩
  have hblameless : Blameless e := he.resolve_right (accepted_not_blamed hv e)
  refine ⟨hcalled t ht,?_,?_⟩
  · rintro message rfl
    exact hblameless
  · rintro rfl
    exact hblameless

def localHost : Host := { labelHost none with parsers := localEnv.parsers }

def localConfig : AgentConfig := { AgentConfig.default with
  printing := ⟨some "Zebra",some ⟨100,150⟩,1⟩ }

def localQueued : QueuedJob := ⟨"REQ-LOCAL",none,localJob,some "http://127.0.0.1:6688"⟩

def localOp : Op :=
  .acceptJobWithHtmlLocalOrigin "REQ-LOCAL" localJob (some "http://127.0.0.1:6688")

theorem local_origins_parse_back : OriginsParseBack localEnv.parsers := by
  intro value url hu _ _
  have hurl : url = localPage ∨ url = localOrigin := by
    simp only [localEnv] at hu
    split_ifs at hu
    · exact Or.inl (Option.some.inj hu).symm
    · exact Or.inr (Option.some.inj hu).symm
  have hback : localEnv.parsers.url "http://127.0.0.1:6688" = some localOrigin := by
    simp [localEnv]
  rcases hurl with rfl|rfl
  · exact ⟨localOrigin,hback,rfl⟩
  · exact ⟨localOrigin,hback,rfl⟩

/-- A page of the local origin is queued, rendered with its grant and not blamed. -/
theorem accepted_job_agrees_local :
    Ensures (processJobInner localHost localQueued localConfig) idleWorld
      (fun _ t => Called (RenderAgrees localEnv.parsers localQueued)
        (PrintAgrees localEnv.parsers localQueued) idleWorld t)
      (fun e t => Called (RenderAgrees localEnv.parsers localQueued)
        (PrintAgrees localEnv.parsers localQueued) idleWorld t ∧
        (∀ message, e ≠ .invalidMessage message) ∧ e ≠ .fileTooLarge) :=
  accepted_job_agrees localEnv.parsers local_origins_parse_back localOp {} [localQueued]
    localQueued (by decide +kernel) (by simp) 20 (by decide +kernel) localHost rfl localConfig rfl
    idleWorld

end YinShu.AcceptedJobs
