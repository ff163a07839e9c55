import YinShu.Acceptance

/-!
# The loopback grant

The server decides once per message which loopback origin may be fetched, and
the queue compares that decision with every job of the message again. A grant
is never wider than the origin of the connection and of the job that carries
it, and a loopback page is never queued without its grant.
-/

set_option autoImplicit false

namespace YinShu.LoopbackGrant
open YinShu.WebUrl YinShu.PrintModel YinShu.Protocol YinShu.PrintQueue YinShu.Settings
open YinShu.ClientText YinShu.Acceptance

/-- The connection was opened by a page of the URL's own loopback origin. -/
def SameLoopbackOrigin (p : Parsers) (origin : Option String) (url : Url) : Prop :=
  ∃ header headerUrl, origin = some header ∧ p.url header = some headerUrl ∧
    isExactLoopbackUrl headerUrl = true ∧ url.origin.same headerUrl.origin = true

/-- The HTML job points at the exact IPv4 loopback address. -/
def LoopbackPage (p : Parsers) (job : PrintJobInput) (url : Url) : Prop :=
  job.format = .html ∧ ∃ fileUrl, job.fileUrl = some fileUrl ∧ p.url fileUrl = some url ∧
    url.hostStr = some "127.0.0.1"

theorem mem_loopbackUrls (p : Parsers) (jobs : List PrintJobInput) (url : Url) :
    url ∈ loopbackUrls p jobs ↔ ∃ job ∈ jobs, job.format = .html ∧ ∃ fileUrl,
      job.fileUrl = some fileUrl ∧ validateHtmlFileUrl p fileUrl = .ok url ∧
        isExactLoopbackUrl url = true := by
  have toOption_ok : ∀ r : Except ProtocolError Url, r.toOption = some url ↔ r = .ok url := by
    intro r
    cases r <;> simp [Except.toOption]
  simp only [loopbackUrls, List.mem_filter, List.mem_filterMap, decide_eq_true_eq, toOption_ok]
  constructor
  · rintro ⟨⟨fileUrl,⟨job,⟨hj,hf⟩,hu⟩,hv⟩,hl⟩
    exact ⟨job,hj,hf,fileUrl,hu,hv,hl⟩
  · rintro ⟨job,hj,hf,fileUrl,hu,hv,hl⟩
    exact ⟨⟨fileUrl,⟨job,⟨hj,hf⟩,hu⟩,hv⟩,hl⟩

theorem htmlLocalOrigin_ok (p : Parsers) (jobs : List PrintJobInput) (origin grant : Option String)
    (h : htmlLocalOrigin p jobs origin = .ok grant) :
    (loopbackUrls p jobs = [] ∧ grant = none) ∨
      ∃ header headerUrl, origin = some header ∧ p.url header = some headerUrl ∧
        isExactLoopbackUrl headerUrl = true ∧
        (∀ url ∈ loopbackUrls p jobs, url.origin.same headerUrl.origin = true) ∧
        grant = some headerUrl.origin.asciiSerialization := by
  unfold htmlLocalOrigin at h
  split_ifs at h with he
  · exact Or.inl ⟨by simpa using he,(Except.ok.inj h).symm⟩
  cases origin with
  | none => cases h
  | some header =>
    cases hf : (p.url header).filter isExactLoopbackUrl with
    | none => simp [hf] at h
    | some headerUrl =>
      obtain ⟨hp,hl⟩ := Option.filter_eq_some_iff.mp hf
      simp only [hf] at h
      split_ifs at h with hany
      refine Or.inr ⟨header,headerUrl,rfl,hp,hl,?_,(Except.ok.inj h).symm⟩
      intro url hu
      by_contra hs
      exact hany (List.any_eq_true.mpr ⟨url,hu,by simpa using hs⟩)

theorem htmlLocalOriginForJob_some (p : Parsers) (job : PrintJobInput) (grant : Option String)
    (o : String) :
    htmlLocalOriginForJob p job grant = some o ↔ ∃ fileUrl url, job.fileUrl = some fileUrl ∧
      validateHtmlFileUrl p fileUrl = .ok url ∧ grant = some o ∧
        o = url.origin.asciiSerialization := by
  unfold htmlLocalOriginForJob
  cases hf : job.fileUrl with
  | none => simp
  | some fileUrl =>
    cases hv : validateHtmlFileUrl p fileUrl with
    | error error => simp [hv]
    | ok url =>
      simp only [hv, Option.filter_eq_some_iff, beq_iff_eq]
      constructor
      · rintro ⟨hg,ho⟩
        exact ⟨fileUrl,url,rfl,hv,hg,ho⟩
      · rintro ⟨_,_,⟨⟩,hv',hg,ho⟩
        rw [hv] at hv'
        cases hv'
        exact ⟨hg,ho⟩

theorem accepted_page_valid (p : Parsers) (job : PrintJobInput) (maxFileSizeMb : UInt64)
    (url : Url) (hp : LoopbackPage p job url)
    (hv : validateForAcceptance p job maxFileSizeMb = .ok ()) :
    ∃ fileUrl, job.fileUrl = some fileUrl ∧ validateHtmlFileUrl p fileUrl = .ok url ∧
      isExactLoopbackUrl url = true := by
  obtain ⟨hf,fileUrl,hu,hparse,hhost⟩ := hp
  refine ⟨fileUrl,hu,?_,by simp [isExactLoopbackUrl,hhost]⟩
  simp only [validateForAcceptance, hf, validateHtmlFileJob, hu] at hv
  cases he : (some fileUrl).filter (fun value => !value.isEmpty) with
  | none => simp [he] at hv
  | some value =>
    obtain ⟨⟨⟩,-⟩ := Option.filter_eq_some_iff.mp he
    simp only [he] at hv
    cases hval : validateHtmlFileUrl p fileUrl with
    | error error => simp [hval] at hv
    | ok v =>
      have := (validateHtmlFileUrl_ok p fileUrl v).mp hval
      rw [hparse] at this
      cases this.1
      rfl

section Accepted

variable {env : ServerEnv} {config : AgentConfig} {origin : Option String} {q : QueueState}
  {message : ClientMessage} {h : Handled} {requestId : String} {batchId grant : Option String}
  {jobs : List PrintJobInput}

theorem accepted_grant_sound (ha : Accepted env config origin q message h requestId batchId jobs
      grant) (job : PrintJobInput) (o : String)
    (ho : htmlLocalOriginForJob env.parsers job grant = some o) :
    ∃ fileUrl url header headerUrl, job.fileUrl = some fileUrl ∧
      env.parsers.url fileUrl = some url ∧ url.origin.asciiSerialization = o ∧
      origin = some header ∧ env.parsers.url header = some headerUrl ∧
      headerUrl.origin.asciiSerialization = o ∧ isExactLoopbackUrl headerUrl = true := by
  obtain ⟨fileUrl,url,hf,hv,hg,rfl⟩ := (htmlLocalOriginForJob_some _ _ _ _).mp ho
  rcases htmlLocalOrigin_ok _ _ _ _ ha.grant_eq with ⟨-,hn⟩ | ⟨header,headerUrl,hh,hp,hl,-,hgr⟩
  · rw [hg] at hn
    cases hn
  · refine ⟨fileUrl,url,header,headerUrl,hf,((validateHtmlFileUrl_ok _ _ _).mp hv).1,rfl,hh,hp,
      ?_,hl⟩
    rw [hg] at hgr
    exact (Option.some.inj hgr).symm

theorem accepted_page_same_origin (ha : Accepted env config origin q message h requestId batchId
      jobs grant) (job : PrintJobInput) (hj : job ∈ jobs) (url : Url)
    (hp : LoopbackPage env.parsers job url) :
    SameLoopbackOrigin env.parsers origin url ∧
      htmlLocalOriginForJob env.parsers job grant = some url.origin.asciiSerialization := by
  obtain ⟨fileUrl,hf,hv,hl⟩ := accepted_page_valid _ _ _ _ hp (ha.valid job hj)
  have hm : url ∈ loopbackUrls env.parsers jobs :=
    (mem_loopbackUrls _ _ _).mpr ⟨job,hj,hp.1,fileUrl,hf,hv,hl⟩
  rcases htmlLocalOrigin_ok _ _ _ _ ha.grant_eq with ⟨hn,-⟩ |
    ⟨header,headerUrl,hh,hparse,hlo,hall,hgr⟩
  · rw [hn] at hm
    cases hm
  · have hs := hall url hm
    refine ⟨⟨header,headerUrl,hh,hparse,hlo,hs⟩,?_⟩
    apply (htmlLocalOriginForJob_some _ _ _ _).mpr
    exact ⟨fileUrl,url,hf,hv,by rw [hgr,same_eq _ _ hs],rfl⟩

end Accepted

/-- Accepted grants are sound and complete, and one loopback page of a foreign
origin rejects the whole message. -/
theorem loopback_grant_sound (env : ServerEnv) (config : AgentConfig) (origin : Option String)
    (text : String) (q : QueueState) (message : ClientMessage) (requestId : String)
    (batchId : Option String) (jobs : List PrintJobInput) (ht : env.fromStr text = .ok message)
    (hm : request message = some (requestId,batchId,jobs)) :
    (isQueued (handleClientText env config origin text q).outcome.response = true →
      ∃ queued, (handleClientText env config origin text q).queue.pending = q.pending++queued ∧
        queued.map QueuedJob.job = jobs ∧ ∀ j ∈ queued,
          (∀ o, j.htmlLocalOrigin = some o →
            ∃ fileUrl url header headerUrl, j.job.fileUrl = some fileUrl ∧
              env.parsers.url fileUrl = some url ∧ url.origin.asciiSerialization = o ∧
              origin = some header ∧ env.parsers.url header = some headerUrl ∧
              headerUrl.origin.asciiSerialization = o ∧ isExactLoopbackUrl headerUrl = true) ∧
          (∀ url, LoopbackPage env.parsers j.job url →
            j.htmlLocalOrigin = some url.origin.asciiSerialization)) ∧
    ((∃ job ∈ jobs, ∃ url, LoopbackPage env.parsers job url ∧
        ¬SameLoopbackOrigin env.parsers origin url) →
      isQueued (handleClientText env config origin text q).outcome.response = false ∧
        (handleClientText env config origin text q).queue = q) := by
  rcases handleClientText_cases env config origin text q with h | ⟨m,r,b,js,grant,ht',h⟩
  · exact ⟨by simp [h.2.2.2],fun _ => ⟨h.2.2.2,h.1⟩⟩
  · rw [ht] at ht'
    cases ht'
    have hreq := h.request_eq
    rw [hm] at hreq
    cases hreq
    constructor
    · intro _
      refine ⟨queuedJobs env.parsers requestId batchId grant jobs,by rw [h.queue_eq]; rfl,
        by simp [queuedJobs,Function.comp_def],?_⟩
      intro j hj
      obtain ⟨job,hjob,rfl⟩ := List.mem_map.mp hj
      exact ⟨fun o ho => accepted_grant_sound h job o ho,
        fun url hp => (accepted_page_same_origin h job hjob url hp).2⟩
    · rintro ⟨job,hjob,url,hp,hno⟩
      exact absurd (accepted_page_same_origin h job hjob url hp).1 hno

def localOrigin : Url where
  scheme := "http"
  hostStr := some "127.0.0.1"
  port := some 6688
  path := "/"
  query := none
  asStr := "http://127.0.0.1:6688/"
  origin := .tuple "http" "127.0.0.1" 6688
  origin_http := by
    rintro - host ⟨⟩
    exact ⟨6688,rfl,rfl⟩

def localPage : Url := { localOrigin with
  path := "/static/Sample.html", asStr := "http://127.0.0.1:6688/static/Sample.html" }

def localJob : PrintJobInput where
  jobId := "JOB-LOCAL"
  format := .html
  fileUrl := some "http://127.0.0.1:6688/static/Sample.html"
  copies := some 1

def localFrame : String :=
  "\x7b\"type\":\"print\",\"request_id\":\"REQ-LOCAL\",\"job_id\":\"JOB-LOCAL\"," ++
  "\"format\":\"html\",\"copies\":1," ++
  "\"file_url\":\"http://127.0.0.1:6688/static/Sample.html\"\x7d"

def localEnv : ServerEnv where
  parsers :=
    { url := fun s =>
        if s = "http://127.0.0.1:6688/static/Sample.html" then some localPage
        else if s = "http://127.0.0.1:6688" then some localOrigin else none
      base64 := fun _ => none
      ipNet := fun _ => none }
  fromStr text := if text = localFrame then .ok (.print "REQ-LOCAL" localJob)
    else .error "expected value at line 1 column 1"
  printing := ⟨.ok [],fun _ => .ok [],fun _ => .ok [],fun _ => .ok []⟩

theorem loopback_grant_sound_local :
    isQueued (handleClientText localEnv AgentConfig.default (some "http://127.0.0.1:6688")
      localFrame {}).outcome.response = true ∧
    ∃ queued, (handleClientText localEnv AgentConfig.default (some "http://127.0.0.1:6688")
      localFrame {}).queue.pending = []++queued ∧ queued.map QueuedJob.job = [localJob] := by
  have hq : isQueued (handleClientText localEnv AgentConfig.default
      (some "http://127.0.0.1:6688") localFrame {}).outcome.response = true := by
    decide +kernel
  obtain ⟨queued,hp,hj,-⟩ := (loopback_grant_sound localEnv AgentConfig.default
    (some "http://127.0.0.1:6688") localFrame {} (.print "REQ-LOCAL" localJob) "REQ-LOCAL" none
    [localJob] (by simp [localEnv]) rfl).1 hq
  exact ⟨hq,queued,hp,hj⟩

end YinShu.LoopbackGrant
