import Mathlib.Logic.Relation
import YinShu.PrintWorker

/-!
# The worker in small steps

Whatever the pipeline, `process_job` does only four things to the world it
sees: it reports a status, changes temporary files, calls the renderer and
calls the print backend. A property that each of them keeps therefore holds
when the job is done; here it is that the history receives, event for event,
what the log receives.
-/

set_option autoImplicit false

namespace YinShu.WorkerSteps
open Relation
open YinShu.Protocol YinShu.PrintModel YinShu.PrintQueue YinShu.Settings YinShu.ErrorState
open YinShu.FileStore YinShu.TempFile YinShu.HtmlRender YinShu.TaskHistory YinShu.PrintWorker

/-- One thing that happens while a job is processed. -/
inductive WorkStep (host : Host) (q : QueuedJob) : World → World → Prop
  | report (status : JobStatus) (message : String) (metadata : Option PrintLogMetadata)
      (w : World) :
      WorkStep host q w (pushLogWithPrintMetadata host q status message metadata w)
  | files (files : Store TempPath) (w : World) : WorkStep host q w { w with files := files }
  | render (request : HtmlRenderRequest) (files : Store TempPath) (w : World) :
      WorkStep host q w { w with files := files, renders := w.renders++[request] }
  | print (call : PrintCall) (w : World) :
      WorkStep host q w { w with prints := w.prints++[call] }

abbrev WorkSteps (host : Host) (q : QueuedJob) : World → World → Prop :=
  ReflTransGen (WorkStep host q)

/-- A program that moves the world by steps, however it ends. -/
def Stepping (host : Host) (q : QueuedJob) {ε α : Type} (m : EStateM ε World α) : Prop :=
  ∀ w, Ensures m w (fun _ t => WorkSteps host q w t) (fun _ t => WorkSteps host q w t)

variable {host : Host} {q : QueuedJob}

section Rules

variable {ε ε' α β : Type} {m : EStateM ε World α}

theorem stepping_pure (a : α) : Stepping host q (pure a : EStateM ε World α) :=
  fun _ => ensures_pure .refl

theorem stepping_throw (e : ε) : Stepping host q (throw e : EStateM ε World α) :=
  fun _ => ensures_throw .refl

theorem stepping_modify {f : World → World} (h : ∀ w, WorkStep host q w (f w)) :
    Stepping host q (modify f : EStateM ε World PUnit) :=
  fun w => ensures_modify (.single (h w))

theorem stepping_ofExcept (x : Except ε α) :
    Stepping host q (ofExcept x : EStateM ε World α) := by
  intro w
  refine (ofExcept_rule x w).mono ?_ ?_ <;>
    · rintro _ _ ⟨-,rfl⟩
      exact .refl

theorem Stepping.bind (hm : Stepping host q m) {f : α → EStateM ε World β}
    (hf : ∀ a, Stepping host q (f a)) : Stepping host q (m >>= f) := fun w =>
  (hm w).bind (fun a t ht => (hf a t).mono (fun _ _ h => ht.trans h) (fun _ _ h => ht.trans h))
    (fun _ _ h => h)

theorem Stepping.attempt (hm : Stepping host q m) :
    Stepping host q (ErrorState.attempt m : EStateM ε' World (Except ε α)) :=
  fun w => (hm w).attempt (fun _ _ h => h) (fun _ _ h => h)

theorem Stepping.thenAlways (hm : Stepping host q m) {after : EStateM ε World PUnit}
    (ha : Stepping host q after) : Stepping host q (ErrorState.thenAlways m after) :=
  hm.attempt.bind (fun result => ha.bind (fun _ => stepping_ofExcept result))

theorem stepping_onFiles (m : EStateM ε (Store TempPath) α) : Stepping host q (onFiles m) := by
  intro w
  apply Ensures.zoom
  unfold Ensures
  split <;> exact .single (.files _ w)

end Rules

section Pipelines

theorem stepping_cleanupFile (path : TempPath) (site : Deletion) :
    Stepping host q (cleanupFile host path site) := stepping_onFiles _

theorem stepping_pushLogWithMetadata (status : JobStatus) (message : String)
    (options : PrintOptions) :
    Stepping host q (pushLogWithMetadata host q status message options) :=
  stepping_modify (.report status message _)

theorem stepping_pushLogWithRawMetadata (status : JobStatus) (message : String)
    (options : RawPrintOptions) :
    Stepping host q (pushLogWithRawMetadata host q status message options) :=
  stepping_modify (.report status message _)

theorem stepping_pushLog (status : JobStatus) (message : String) :
    Stepping host q (pushLog host q status message) :=
  stepping_modify (.report status message _)

theorem stepping_recordPrint (request : PrintRequest)
    (result : Except PrintError PrintSubmission) :
    Stepping host q (recordPrint request result) :=
  (stepping_modify (.print ⟨request,result⟩)).bind (fun _ => stepping_ofExcept _)

theorem stepping_submitAndTrack {log : JobStatus → String → Work PUnit}
    {call : Work PrintSubmission} (track : PrintSubmission → PrintTrackingOutcome)
    (hl : ∀ status message, Stepping host q (log status message))
    (hc : Stepping host q call) : Stepping host q (submitAndTrack log call track) := by
  refine hc.bind (fun submission => (hl _ _).bind (fun _ => ?_))
  split
  · exact hl _ _
  · exact stepping_pure _

theorem stepping_submitPdfAndTrack (options : PrintOptions) (pdfPath : TempPath) :
    Stepping host q (submitPdfAndTrack host q options pdfPath) :=
  (stepping_pushLogWithMetadata _ _ options).bind (fun _ => stepping_submitAndTrack _
    (fun _ _ => stepping_pushLogWithMetadata _ _ options) (stepping_recordPrint _ _))

theorem stepping_printRawJob (options : RawPrintOptions) (config : AgentConfig) :
    Stepping host q (printRawJob host q options config) :=
  (stepping_ofExcept _).bind (fun _ =>
    (stepping_pushLogWithRawMetadata _ _ options).bind (fun _ => stepping_submitAndTrack _
      (fun _ _ => stepping_pushLogWithRawMetadata _ _ options)
      ((stepping_onFiles _).attempt.bind (fun _ => stepping_recordPrint _ _))))

theorem stepping_render (request : HtmlRenderRequest) :
    Stepping host q (render host request) :=
  (stepping_modify (fun w => .render request _ w)).bind (fun _ => stepping_pure _)

theorem stepping_cleanupRendering (renderedPath outputPath : TempPath) :
    Stepping host q (cleanupRendering host renderedPath outputPath) := by
  refine (stepping_cleanupFile _ _).bind (fun _ => ?_)
  split
  · exact stepping_cleanupFile _ _
  · exact stepping_pure _

theorem stepping_printHtmlJob (options : PrintOptions) :
    Stepping host q (printHtmlJob host q options) := by
  refine (stepping_ofExcept _).bind (fun source => (stepping_render _).bind (fun result => ?_))
  cases result with
  | error error => exact (stepping_cleanupFile _ _).bind (fun _ => stepping_throw _)
  | ok rendered =>
    exact (stepping_pushLogWithMetadata _ _ options).bind (fun _ =>
      (stepping_submitPdfAndTrack options _).thenAlways (stepping_cleanupRendering _ _))

theorem stepping_pushOfficeConverter (options : PrintOptions) (converter : Option String) :
    Stepping host q (pushOfficeConverter host q options converter) := by
  cases converter with
  | none => exact stepping_pure _
  | some converter => exact stepping_pushLogWithMetadata _ _ options

theorem stepping_cleanupPrintable (printablePath downloadedPath : TempPath) :
    Stepping host q (cleanupPrintable host printablePath downloadedPath) := by
  unfold cleanupPrintable
  split
  · exact stepping_cleanupFile _ _
  · exact stepping_pure _

theorem stepping_printDownloadedFile (options : PrintOptions) (downloadedPath : TempPath) :
    Stepping host q (printDownloadedFile host q options downloadedPath) :=
  (stepping_onFiles _).bind (fun _ =>
    (stepping_pushOfficeConverter options _).bind (fun _ =>
      (stepping_submitPdfAndTrack options _).thenAlways (stepping_cleanupPrintable _ _)))

theorem stepping_printFileJob (config : AgentConfig) :
    Stepping host q (printFileJob host q config) :=
  (stepping_pushLog _ _).bind (fun _ => (stepping_ofExcept _).bind (fun _ =>
    (stepping_ofExcept _).bind (fun options => (stepping_onFiles _).bind (fun path =>
      (stepping_printDownloadedFile options path).thenAlways (stepping_cleanupFile _ _)))))

theorem stepping_processJobInner (config : AgentConfig) :
    Stepping host q (processJobInner host q config) := by
  unfold processJobInner
  cases q.job.format with
  | html | rawHtml =>
    exact (stepping_ofExcept _).bind (fun options => stepping_printHtmlJob options)
  | raw => exact (stepping_ofExcept _).bind (fun options => stepping_printRawJob options config)
  | _ => exact stepping_printFileJob config

end Pipelines

/-- Processing a job is a sequence of steps, whatever the outcomes are. -/
theorem processJob_steps (host : Host) (q : QueuedJob) (config : AgentConfig) (w : World) :
    WorkSteps host q w (processJob host q config w) := by
  have hq : WorkStep host q w (pushLogWithPrintMetadata host q .queued "queued" none w) :=
    .report .queued "queued" none w
  have hinner : Stepping host q (processJobInner host q config) :=
    stepping_processJobInner config
  have hi := hinner (pushLogWithPrintMetadata host q .queued "queued" none w)
  unfold Ensures at hi
  unfold processJob
  split at hi
  · rename_i hrun
    simpa [hrun] using hi.head hq
  · rename_i error t hrun
    simpa [hrun] using (hi.head hq).tail (.report .failed error.message none t)

/-- The event that goes to the history with a log entry of the job. -/
def eventKey (event : NewTaskHistoryEvent) : String × TaskHistoryStatus × String :=
  (event.jobId,event.status,event.occurredAt)

def entryKey (q : QueuedJob) (entry : TaskLogEntry) : String × TaskHistoryStatus × String :=
  (q.jobId,taskHistoryStatus entry.status,entry.timestamp)

/-- From one world to the next, the history has received what the log has received. -/
def Mirrored (q : QueuedJob) (w t : World) : Prop :=
  ∃ entries events, t.logs = w.logs++entries ∧ t.history = w.history++events ∧
    events.map eventKey = entries.map (entryKey q)

theorem Mirrored.refl (q : QueuedJob) (w : World) : Mirrored q w w := ⟨[],[],by simp⟩

theorem Mirrored.step {w t u : World} (h : Mirrored q w t) (ha : host.taskHistory = true)
    (hs : WorkStep host q t u) : Mirrored q w u := by
  obtain ⟨entries,events,hl,hh,hk⟩ := h
  cases hs with
  | report status message metadata =>
    refine ⟨entries++[logEntry q (host.now t.logs.length) status message],
      events++[historyEvent q status message (host.now t.logs.length) metadata],?_,?_,?_⟩
    · simp [pushLogWithPrintMetadata,hl]
    · simp [pushLogWithPrintMetadata,ha,hh]
    · rw [List.map_append,hk,List.map_append]
      rfl
  | files files => exact ⟨entries,events,hl,hh,hk⟩
  | render request files => exact ⟨entries,events,hl,hh,hk⟩
  | print call => exact ⟨entries,events,hl,hh,hk⟩

/-- With a history attached, every status that a job reports is recorded in it. -/
theorem mirrored_of_steps {w t : World} (ha : host.taskHistory = true)
    (h : WorkSteps host q w t) : Mirrored q w t := by
  induction h with
  | refl => exact .refl q w
  | tail _ hs ih => exact ih.step ha hs

end YinShu.WorkerSteps
