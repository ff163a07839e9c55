import YinShu.AgentSystem
import YinShu.PrintWorker

/-!
# The statuses of one job

Every run of the worker on a job reports a trace of statuses: queued,
downloading for the file formats, some printing, and one ending. The pipelines
share three relations between the world before and after: nothing but
`printing` was reported and the backend was not called, the job was given up
without a submission, or it was submitted and followed. A whole run is a word
of the worker in the machine of connections, queue and worker.
-/

set_option autoImplicit false

namespace YinShu.StatusTrace
open YinShu.Protocol YinShu.PrintModel YinShu.PrintQueue YinShu.Settings YinShu.ErrorState
open YinShu.FileStore YinShu.TempFile YinShu.TaskHistory YinShu.PrintWorker
open YinShu.ClientText YinShu.AgentSystem YinShu.LabelledRun

def isFileFormat : SupportedFormat → Bool
  | .raw | .html | .rawHtml => false
  | _ => true

def statuses (w : World) : List JobStatus := w.logs.map TaskLogEntry.status

/-- What follows the submission: nothing on a platform without tracking, otherwise
exactly one final status. -/
def Ending (submission : PrintSubmission) (ending : List JobStatus) : Prop :=
  submission.trackingSupported = false ∧ ending = [.submitted] ∨
    submission.trackingSupported = true ∧
      ∃ last ∈ [JobStatus.completed,.failed,.unknown], ending = [.submitted,last]

section Relations

variable (q : QueuedJob)

/-- From one world to the next, the entries of the job and the calls that were
added. -/
def Reported (w t : World) (trace : List JobStatus) (calls : List PrintCall) : Prop :=
  (∃ entries, t.logs = w.logs++entries ∧ entries.map TaskLogEntry.status = trace ∧
    ∀ entry ∈ entries, entry = logEntry q entry.timestamp entry.status entry.message) ∧
    t.prints = w.prints++calls

def Preparing (w t : World) : Prop := ∃ n, Reported q w t (List.replicate n .printing) []

def Aborted (w t : World) : Prop :=
  ∃ n calls, Reported q w t (List.replicate n .printing) calls ∧ calls.length ≤ 1 ∧
    ∀ call ∈ calls, ∃ error, call.result = .error error

def Delivered (w t : World) : Prop :=
  ∃ n call submission ending, Reported q w t (List.replicate n .printing++ending) [call] ∧
    call.result = .ok submission ∧ Ending submission ending

theorem Reported.refl (w : World) : Reported q w w [] [] :=
  ⟨⟨[],by simp,rfl,by simp⟩,by simp⟩

theorem Preparing.refl (w : World) : Preparing q w w := ⟨0,Reported.refl q w⟩

variable {q} {w t u : World}

theorem Reported.statuses_eq {trace : List JobStatus} {calls : List PrintCall}
    (h : Reported q w t trace calls) : statuses t = statuses w++trace := by
  obtain ⟨⟨entries,hl,rfl,-⟩,-⟩ := h
  simp [statuses,hl]

theorem Reported.trans {trace more : List JobStatus} {calls further : List PrintCall}
    (h : Reported q w t trace calls) (h' : Reported q t u more further) :
    Reported q w u (trace++more) (calls++further) := by
  obtain ⟨⟨entries,hl,hs,he⟩,hp⟩ := h
  obtain ⟨⟨entries',hl',hs',he'⟩,hp'⟩ := h'
  refine ⟨⟨entries++entries',?_,?_,?_⟩,by rw [hp',hp,List.append_assoc]⟩
  · rw [hl',hl,List.append_assoc]
  · rw [List.map_append,hs,hs']
  · intro entry hm
    rcases List.mem_append.mp hm with hm|hm
    · exact he entry hm
    · exact he' entry hm

theorem Preparing.trans (h : Preparing q w t) (h' : Preparing q t u) :
    Preparing q w u := by
  obtain ⟨n,hn⟩ := h
  obtain ⟨k,hk⟩ := h'
  exact ⟨n+k,by simpa using hn.trans hk⟩

theorem Preparing.aborted (h : Preparing q w t) (h' : Aborted q t u) :
    Aborted q w u := by
  obtain ⟨n,hn⟩ := h
  obtain ⟨k,calls,hk,hl,he⟩ := h'
  exact ⟨n+k,calls,by simpa using hn.trans hk,hl,he⟩

theorem Preparing.delivered (h : Preparing q w t) (h' : Delivered q t u) :
    Delivered q w u := by
  obtain ⟨n,hn⟩ := h
  obtain ⟨k,call,submission,ending,hk,hc,he⟩ := h'
  have h := hn.trans hk
  rw [← List.append_assoc,List.replicate_append_replicate] at h
  exact ⟨n+k,call,submission,ending,h,hc,he⟩

theorem Preparing.abort (h : Preparing q w t) : Aborted q w t := by
  obtain ⟨n,hn⟩ := h
  exact ⟨n,[],hn,by simp,by simp⟩

theorem Aborted.silent (h : Aborted q w t) (h' : Reported q t u [] []) :
    Aborted q w u := by
  obtain ⟨n,calls,hk,hl,he⟩ := h
  exact ⟨n,calls,by simpa using hk.trans h',hl,he⟩

theorem Delivered.silent (h : Delivered q w t) (h' : Reported q t u [] []) :
    Delivered q w u := by
  obtain ⟨n,call,submission,ending,hk,hc,he⟩ := h
  exact ⟨n,call,submission,ending,by simpa using hk.trans h',hc,he⟩

end Relations

section Steps

variable (host : Host) (q : QueuedJob) (w : World)

theorem pushLog_reported (status : JobStatus) (message : String)
    (metadata : Option PrintLogMetadata) :
    Reported q w (pushLogWithPrintMetadata host q status message metadata w)
      [status] [] := by
  refine ⟨⟨[logEntry q (host.now w.logs.length) status message],rfl,rfl,?_⟩,?_⟩
  · intro entry he
    rw [List.mem_singleton.mp he]
    rfl
  · simp [pushLogWithPrintMetadata]

theorem onFiles_reported {ε α : Type} (m : EStateM ε (Store TempPath) α) :
    Ensures (onFiles m) w (fun _ t => Reported q w t [] []) (fun _ t => Reported q w t [] []) := by
  apply Ensures.zoom
  unfold Ensures
  split <;> exact Reported.refl q w

theorem cleanupFile_reported (path : TempPath) (site : Deletion) :
    Ensures (cleanupFile host path site) w (fun _ t => Reported q w t [] [])
      (fun _ _ => False) := by
  apply Ensures.zoom
  cases h : host.deletions site with
  | none => exact Reported.refl q w
  | some error => exact Reported.refl q w

theorem cleanupRendering_reported (renderedPath outputPath : TempPath) :
    Ensures (cleanupRendering host renderedPath outputPath) w (fun _ t => Reported q w t [] [])
      (fun _ _ => False) := by
  refine (cleanupFile_reported host q w _ _).bind ?_ (by simp)
  intro _ t ht
  split
  · exact (cleanupFile_reported host q t _ _).mono (fun _ _ h => ht.trans h) (by simp)
  · exact ensures_pure ht

theorem cleanupPrintable_reported (printablePath downloadedPath : TempPath) :
    Ensures (cleanupPrintable host printablePath downloadedPath) w
      (fun _ t => Reported q w t [] []) (fun _ _ => False) := by
  unfold cleanupPrintable
  split
  · exact cleanupFile_reported host q w _ _
  · exact ensures_pure (Reported.refl q w)

theorem render_reported (request : HtmlRender.HtmlRenderRequest) :
    Ensures (render host request) w (fun _ t => Reported q w t [] []) (fun _ _ => False) :=
  ensures_modify_bind (ensures_pure (Reported.refl q w))

/-- The recorded call is the only one, and its result decides how the program
continues. -/
theorem recordPrint_reported (request : PrintRequest)
    (result : Except PrintError PrintSubmission) :
    Ensures (recordPrint request result) w
      (fun submission t => ∃ call : PrintCall, Reported q w t [] [call] ∧
        call.result = .ok submission)
      (fun _ t => Aborted q w t) := by
  apply ensures_modify_bind
  cases result with
  | ok submission =>
    refine ensures_pure ⟨⟨request,.ok submission⟩,?_,rfl⟩
    exact ⟨⟨[],by simp,rfl,by simp⟩,rfl⟩
  | error error =>
    refine ensures_throw ⟨0,[⟨request,.error error⟩],?_,by simp,by simp⟩
    exact ⟨⟨[],by simp,rfl,by simp⟩,rfl⟩

theorem trackingStatus_mem (outcome : PrintTrackingOutcome) :
    (trackingStatus outcome).1 ∈ [JobStatus.completed,.failed,.unknown] := by
  cases outcome <;> simp [trackingStatus]

theorem submitAndTrack_delivered (log : JobStatus → String → Work PUnit)
    (call : Work PrintSubmission) (track : PrintSubmission → PrintTrackingOutcome)
    (hlog : ∀ status message t, Ensures (log status message) t
      (fun _ u => Reported q t u [status] []) (fun _ _ => False))
    (hcall : Ensures call w
      (fun submission t => ∃ call : PrintCall, Reported q w t [] [call] ∧
        call.result = .ok submission)
      (fun _ t => Aborted q w t)) :
    Ensures (submitAndTrack log call track) w (fun _ t => Delivered q w t)
      (fun _ t => Aborted q w t) := by
  refine hcall.bind ?_ (fun _ _ h => h)
  rintro submission t ⟨made,hr,hm⟩
  refine (hlog _ _ t).bind ?_ (by simp)
  intro _ u hu
  have hs := hr.trans hu
  by_cases hts : submission.trackingSupported = true
  · rw [if_pos hts]
    refine (hlog _ _ u).mono ?_ (by simp)
    intro _ v hv
    refine ⟨0,made,submission,_,by simpa using hs.trans hv,hm,Or.inr ⟨hts,_,
      trackingStatus_mem (track submission),rfl⟩⟩
  · rw [if_neg hts]
    exact ensures_pure ⟨0,made,submission,_,by simpa using hs,hm,
      Or.inl ⟨by simpa using hts,rfl⟩⟩

end Steps

section Pipelines

variable (host : Host) (q : QueuedJob) (w : World)

theorem submitPdfAndTrack_delivered (options : PrintOptions) (pdfPath : TempPath) :
    Ensures (submitPdfAndTrack host q options pdfPath) w (fun _ t => Delivered q w t)
      (fun _ t => Aborted q w t) := by
  apply ensures_modify_bind
  have hp : Preparing q w _ :=
    ⟨1,pushLog_reported host q w .printing "printing" (some (fileMetadata options))⟩
  refine (submitAndTrack_delivered q _ _ _ _ ?_ (recordPrint_reported q _ _ _)).mono
    (fun _ _ h => hp.delivered h) (fun _ _ h => hp.aborted h)
  intro status message t
  exact ensures_modify (pushLog_reported host q t status message _)

theorem printRaw_reported (data : Bytes) (options : RawPrintOptions) :
    Ensures (printRaw host data options) w
      (fun submission t => ∃ call : PrintCall, Reported q w t [] [call] ∧
        call.result = .ok submission)
      (fun _ t => Aborted q w t) := by
  refine Ensures.bind ((onFiles_reported q w _).attempt (F := fun _ _ => False)
    (R := fun _ t => Reported q w t [] []) (fun _ _ h => h) (fun _ _ h => h)) ?_ (by simp)
  intro result t ht
  refine (recordPrint_reported q t (.raw data options) result).mono ?_ ?_
  · rintro submission u ⟨call,hu,hc⟩
    exact ⟨call,by simpa using ht.trans hu,hc⟩
  · rintro error u hu
    exact Preparing.aborted ⟨0,ht⟩ hu

theorem printRawJob_delivered (options : RawPrintOptions) (config : AgentConfig) :
    Ensures (printRawJob host q options config) w (fun _ t => Delivered q w t)
      (fun _ t => Aborted q w t) := by
  refine (ofExcept_rule _ w).bind ?_ ?_
  · rintro data w ⟨-,rfl⟩
    apply ensures_modify_bind
    have hp : Preparing q w _ := ⟨1,pushLog_reported host q w .printing "printing raw"
      (some (rawMetadata options))⟩
    refine (submitAndTrack_delivered q _ _ _ _ ?_ (printRaw_reported host q _ _ _)).mono
      (fun _ _ h => hp.delivered h) (fun _ _ h => hp.aborted h)
    intro status message t
    exact ensures_modify (pushLog_reported host q t status message _)
  · rintro error _ ⟨-,rfl⟩
    exact (Preparing.refl q _).abort

theorem printHtmlJob_delivered (options : PrintOptions) :
    Ensures (printHtmlJob host q options) w (fun _ t => Delivered q w t)
      (fun _ t => Aborted q w t) := by
  refine (ofExcept_rule _ w).bind ?_ ?_
  · rintro source w ⟨-,rfl⟩
    refine (render_reported host q w _).bind ?_ (by simp)
    rintro (error|rendered) t ht
    · refine (cleanupFile_reported host q t _ _).bind ?_ (by simp)
      intro _ u hu
      exact ensures_throw (Preparing.abort ⟨0,ht.trans hu⟩)
    · apply ensures_modify_bind
      have hp : Preparing q w _ := ⟨1,by simpa using ht.trans (pushLog_reported host q t
        .printing ("rendering html with " ++ rendered.renderer) (some (fileMetadata options)))⟩
      exact (submitPdfAndTrack_delivered host q _ options _).thenCleanup
        (fun u => cleanupRendering_reported host q u _ _)
        (fun _ _ _ hu h => hp.delivered (hu.silent h))
        (fun _ _ _ hu h => hp.aborted (hu.silent h))
  · rintro error _ ⟨-,rfl⟩
    exact (Preparing.refl q _).abort

theorem printDownloadedFile_delivered (options : PrintOptions) (downloadedPath : TempPath) :
    Ensures (printDownloadedFile host q options downloadedPath) w
      (fun _ t => Delivered q w t) (fun _ t => Aborted q w t) := by
  refine (onFiles_reported q w _).bind ?_ (fun _ _ h => Preparing.abort ⟨0,h⟩)
  intro printable t ht
  have hlog : Ensures (pushOfficeConverter host q options printable.officeConverter) t
      (fun _ u => Preparing q w u) (fun _ _ => False) := by
    cases printable.officeConverter with
    | some converter =>
      exact ensures_modify ⟨1,by simpa using ht.trans (pushLog_reported host q t _ _ _)⟩
    | none => exact ensures_pure ⟨0,ht⟩
  refine hlog.bind ?_ (by simp)
  intro _ u hp
  exact (submitPdfAndTrack_delivered host q u options _).thenCleanup
    (fun v => cleanupPrintable_reported host q v _ _)
    (fun _ _ _ hv h => hp.delivered (hv.silent h))
    (fun _ _ _ hv h => hp.aborted (hv.silent h))

theorem printFileJob_delivered (config : AgentConfig) :
    Ensures (printFileJob host q config) w
      (fun _ t => ∃ u, Reported q w u [.downloading] [] ∧ Delivered q u t)
      (fun _ t => ∃ u, Reported q w u [.downloading] [] ∧ Aborted q u t) := by
  apply ensures_modify_bind
  have hr := pushLog_reported host q w .downloading "downloading" none
  refine (ofExcept_rule _ _).bind ?_ ?_
  · rintro fileUrl _ ⟨-,rfl⟩
    refine (ofExcept_rule _ _).bind ?_ ?_
    · rintro options _ ⟨-,rfl⟩
      refine (onFiles_reported q _ _).bind ?_ (fun _ _ h => ⟨_,hr,Preparing.abort ⟨0,h⟩⟩)
      intro downloadedPath u hu
      have hp : Preparing q _ u := ⟨0,hu⟩
      exact (printDownloadedFile_delivered host q u options downloadedPath).thenCleanup
        (fun v => cleanupFile_reported host q v _ _)
        (fun _ _ _ hv h => ⟨_,hr,hp.delivered (hv.silent h)⟩)
        (fun _ _ _ hv h => ⟨_,hr,hp.aborted (hv.silent h)⟩)
    · rintro error _ ⟨-,rfl⟩
      exact ⟨_,hr,(Preparing.refl q _).abort⟩
  · rintro error _ ⟨-,rfl⟩
    exact ⟨_,hr,(Preparing.refl q _).abort⟩

end Pipelines

/-- The statuses before the pipeline's own. -/
def opening (format : SupportedFormat) : List JobStatus :=
  if isFileFormat format then [.downloading] else []

theorem processJobInner_delivered (host : Host) (q : QueuedJob) (config : AgentConfig)
    (w : World) :
    Ensures (processJobInner host q config) w
      (fun _ t => ∃ u, Reported q w u (opening q.job.format) [] ∧ Delivered q u t)
      (fun _ t => ∃ u, Reported q w u (opening q.job.format) [] ∧ Aborted q u t) := by
  have hfile := printFileJob_delivered host q w config
  have hhtml : Ensures (do
      let options ← ofExcept (resolvePrintOptions q config)
      printHtmlJob host q options) w (fun _ t => ∃ u, Reported q w u [] [] ∧ Delivered q u t)
      (fun _ t => ∃ u, Reported q w u [] [] ∧ Aborted q u t) := by
    refine (ofExcept_rule _ w).bind ?_ ?_
    · rintro options w ⟨-,rfl⟩
      exact (printHtmlJob_delivered host q w options).mono
        (fun _ _ h => ⟨_,Reported.refl q w,h⟩) (fun _ _ h => ⟨_,Reported.refl q w,h⟩)
    · rintro error w ⟨-,rfl⟩
      exact ⟨_,Reported.refl q w,(Preparing.refl q w).abort⟩
  have hraw : Ensures (do
      let options ← ofExcept (resolveRawPrintOptions q config)
      printRawJob host q options config) w
      (fun _ t => ∃ u, Reported q w u [] [] ∧ Delivered q u t)
      (fun _ t => ∃ u, Reported q w u [] [] ∧ Aborted q u t) := by
    refine (ofExcept_rule _ w).bind ?_ ?_
    · rintro options w ⟨-,rfl⟩
      exact (printRawJob_delivered host q w options config).mono
        (fun _ _ h => ⟨_,Reported.refl q w,h⟩) (fun _ _ h => ⟨_,Reported.refl q w,h⟩)
    · rintro error w ⟨-,rfl⟩
      exact ⟨_,Reported.refl q w,(Preparing.refl q w).abort⟩
  unfold processJobInner opening
  cases hf : q.job.format with
  | html | rawHtml => exact hhtml
  | raw => exact hraw
  | pdf | image | png | jpg | jpeg | docx | xlsx | pptx => exact hfile

/-- The law of a trace and of the backend calls made along it. -/
structure WellFormed (format : SupportedFormat) (trace : List JobStatus)
    (calls : List PrintCall) : Prop where
  shape : ∃ n ending, trace = .queued::(opening format++(List.replicate n .printing++ending)) ∧
    (ending = [.failed] ∨ ∃ call submission, calls = [call] ∧ call.result = .ok submission ∧
      Ending submission ending)
  last : ∃ status, trace.getLast? = some status ∧ (taskHistoryStatus status).isTerminal = true
  submitted : .submitted ∈ trace ↔ ∃ call ∈ calls, ∃ submission, call.result = .ok submission
  once : calls.length ≤ 1

theorem opening_not_submitted (format : SupportedFormat) : .submitted ∉ opening format := by
  cases format <;> simp [opening,isFileFormat]

theorem wellFormed_aborted (format : SupportedFormat) (n : ℕ) (calls : List PrintCall)
    (hl : calls.length ≤ 1) (he : ∀ call ∈ calls, ∃ error, call.result = .error error) :
    WellFormed format (.queued::(opening format++(List.replicate n .printing++[.failed])))
      calls where
  shape := ⟨n,[.failed],rfl,Or.inl rfl⟩
  last := ⟨.failed,by simp [List.getLast?_cons],rfl⟩
  submitted := by
    refine iff_of_false ?_ ?_
    · simp [opening_not_submitted]
    · rintro ⟨call,hc,submission,hs⟩
      obtain ⟨error,h⟩ := he call hc
      simp [h] at hs
  once := hl

theorem wellFormed_delivered (format : SupportedFormat) (n : ℕ) (call : PrintCall)
    (submission : PrintSubmission) (ending : List JobStatus)
    (hc : call.result = .ok submission) (he : Ending submission ending) :
    WellFormed format (.queued::(opening format++(List.replicate n .printing++ending)))
      [call] where
  shape := ⟨n,ending,rfl,Or.inr ⟨call,submission,rfl,hc,he⟩⟩
  last := by
    rcases he with ⟨-,rfl⟩|⟨-,last,hm,rfl⟩
    · exact ⟨.submitted,by simp [List.getLast?_cons],rfl⟩
    · refine ⟨last,by simp [List.getLast?_cons],?_⟩
      simp only [List.mem_cons,List.not_mem_nil,or_false] at hm
      rcases hm with rfl|rfl|rfl <;> rfl
  submitted := by
    refine iff_of_true ?_ ⟨call,by simp,submission,hc⟩
    rcases he with ⟨-,rfl⟩|⟨-,last,-,rfl⟩ <;> simp
  once := by simp

theorem processJob_reported (host : Host) (q : QueuedJob) (config : AgentConfig) (w : World) :
    ∃ trace calls, Reported q w (processJob host q config w) trace calls ∧
      WellFormed q.job.format trace calls := by
  have hq := pushLog_reported host q w .queued "queued" none
  have hi := processJobInner_delivered host q config
    (pushLogWithPrintMetadata host q .queued "queued" none w)
  unfold Ensures at hi
  unfold processJob
  split at hi
  · rename_i a t hrun
    obtain ⟨u,hu,n,call,submission,ending,hr,hc,he⟩ := hi
    have h := (hq.trans hu).trans hr
    refine ⟨_,_,?_,wellFormed_delivered q.job.format n call submission ending hc he⟩
    simpa [hrun] using h
  · rename_i error t hrun
    obtain ⟨u,hu,n,calls,hr,hl,he⟩ := hi
    have h := ((hq.trans hu).trans hr).trans
      (pushLog_reported host q t .failed error.message none)
    refine ⟨_,_,?_,wellFormed_aborted q.job.format n calls hl he⟩
    simpa [hrun] using h

/-- Whatever the job, the configuration and every outcome of the host are, the
statuses reported for the job and the calls of the backend obey the law. -/
theorem process_job_trace (host : Host) (q : QueuedJob) (config : AgentConfig) (w : World) :
    ∃ trace calls, statuses (processJob host q config w) = statuses w++trace ∧
      (processJob host q config w).prints = w.prints++calls ∧
      WellFormed q.job.format trace calls := by
  obtain ⟨trace,calls,hr,hw⟩ := processJob_reported host q config w
  exact ⟨trace,calls,hr.statuses_eq,hr.2,hw⟩

section Machine

/-- The letter of the worker that puts an entry on the status channel. -/
def broadcastOf (entry : TaskLogEntry) : Label :=
  .worker (.broadcast entry.timestamp entry.status entry.message)

theorem broadcasts_run (env : ServerEnv) (q : QueuedJob) (entries : List TaskLogEntry)
    (s : System) (hs : s.worker = .processing q)
    (he : ∀ entry ∈ entries, entry = logEntry q entry.timestamp entry.status entry.message) :
    run (step env) (entries.map broadcastOf) s = some { s with log := s.log++entries } := by
  induction entries generalizing s with
  | nil => simp [run]
  | cons entry entries ih =>
    have hstep : step env s (broadcastOf entry) = some { s with log := s.log++[entry] } := by
      have hentry := he entry (by simp)
      simp only [broadcastOf,step,workerStep,hs]
      rw [← hentry]
    rw [List.map_cons,run,hstep]
    simpa using ih { s with log := s.log++[entry] } hs (fun e hm => he e (by simp [hm]))

/-- Processing a job is a run of the worker's letters in the machine of the agent:
one for every reported status, and the one that goes back to the loop. -/
theorem processJob_worker_run (env : ServerEnv) (host : Host) (q : QueuedJob)
    (config : AgentConfig) (w : World) (s : System) (hs : s.worker = .processing q)
    (hl : s.log = w.logs) :
    ∃ entries : List TaskLogEntry, (processJob host q config w).logs = w.logs++entries ∧
      run (step env) (entries.map broadcastOf++[.worker .finish]) s =
        some { s with log := (processJob host q config w).logs, worker := .top } := by
  obtain ⟨trace,calls,⟨⟨entries,hlogs,-,he⟩,-⟩,-⟩ := processJob_reported host q config w
  refine ⟨entries,hlogs,?_⟩
  rw [run_append,broadcasts_run env q entries s hs he,hlogs,← hl]
  simp [run,step,workerStep,hs]

end Machine

end YinShu.StatusTrace
