import YinShu.TaskHistoryStore

/-!
# The summary of a job and its events

A history is any sequence of recordings, clearings and reopenings, with any
outcome of every inner step. The row of a job is then the summary of the
events that were recorded for it since the last clearing: some columns come
from the last event, one from the first, and the others keep the last value
that was given. The finishing time is of the last kind, so an event that
follows the end of its job leaves it standing.
-/

set_option autoImplicit false

namespace YinShu.TaskSummary
open YinShu.ErrorState YinShu.Transaction YinShu.TaskHistory YinShu.TaskHistoryStore

inductive Call where
  | recordEvent (event : NewTaskHistoryEvent)
  | clear
  | reopen
  deriving DecidableEq, Repr

def perform (o : Outcomes) : Call → Session Database PUnit
  | .recordEvent event => recordEvent o event
  | .clear => clear o
  | .reopen => purgeRemovedSources o

/-- What a successful call does to the record of events. -/
def Call.keep : Call → List NewTaskHistoryEvent → List NewTaskHistoryEvent
  | .recordEvent event, recorded => recorded++[event]
  | .clear, _ => []
  | .reopen, recorded => recorded

/-- The connection, and the events that were successfully recorded since the last
successful clearing. -/
structure History where
  conn : Connection Database
  recorded : List NewTaskHistoryEvent

def step (h : History) (call : Call × Outcomes) : History :=
  match perform call.2 call.1 h.conn with
  | .ok _ conn => ⟨conn,call.1.keep h.recorded⟩
  | .error _ conn => ⟨conn,h.recorded⟩

def history (calls : List (Call × Outcomes)) : History :=
  calls.foldl step ⟨⟨Database.empty,none⟩,[]⟩

def lastSome {α : Type} (values : List (Option α)) : Option α := (values.filterMap id).getLast?

def eventsOf (jobId : String) (recorded : List NewTaskHistoryEvent) : List NewTaskHistoryEvent :=
  recorded.filter (fun event => event.jobId == jobId)

/-- The row that the events of one job amount to. -/
def summary (jobId : String) (events : List NewTaskHistoryEvent) : Option JobRow :=
  match events.head?,events.getLast? with
  | some first,some last => some
      { jobId := jobId
        requestId := lastSome (events.map NewTaskHistoryEvent.requestId)
        batchId := lastSome (events.map NewTaskHistoryEvent.batchId)
        source := last.source.asStr
        currentStatus := last.status.asStr
        currentMessage := last.message
        printerName := lastSome (events.map NewTaskHistoryEvent.printerName)
        paperName := lastSome (events.map NewTaskHistoryEvent.paperName)
        copies := lastSome (events.map NewTaskHistoryEvent.copies)
        createdAt := first.occurredAt
        updatedAt := last.occurredAt
        finishedAt := lastSome (events.map finishedAt) }
  | _,_ => none

def eventData (event : NewTaskHistoryEvent) : String × String × Option String × String :=
  (event.jobId,event.status.asStr,event.message,event.occurredAt)

def rowData (row : EventRow) : String × String × Option String × String :=
  (row.jobId,row.status,row.message,row.occurredAt)

/-- The tables hold the recorded events and the summaries of them. -/
structure Inv (h : History) : Prop where
  idle : h.conn.working = none
  jobs : ∀ jobId, h.conn.committed.jobs jobId = summary jobId (eventsOf jobId h.recorded)
  events : h.conn.committed.events.map rowData = h.recorded.map eventData

theorem lastSome_concat {α : Type} (values : List (Option α)) (value : Option α) :
    lastSome (values++[value]) = value.or (lastSome values) := by
  cases value <;> simp [lastSome]

theorem eventsOf_concat (jobId : String) (recorded : List NewTaskHistoryEvent)
    (event : NewTaskHistoryEvent) :
    eventsOf jobId (recorded++[event]) =
      if event.jobId = jobId then eventsOf jobId recorded++[event]
      else eventsOf jobId recorded := by
  unfold eventsOf
  split_ifs with h <;> simp [h]

theorem summary_none {jobId : String} {events : List NewTaskHistoryEvent} :
    summary jobId events = none ↔ events = [] := by
  cases events with
  | nil => simp [summary]
  | cons event events => simp [summary,List.getLast?_cons]

/-- One more event changes the summary as the conflict clause changes the row. -/
theorem summary_concat (events : List NewTaskHistoryEvent) (event : NewTaskHistoryEvent) :
    summary event.jobId (events++[event]) =
      some (upserted event (summary event.jobId events)) := by
  cases events with
  | nil => simp [summary,upserted,excluded,lastSome]
  | cons first rest =>
    have hlast : (first::rest).getLast? = some ((first::rest).getLast (by simp)) :=
      List.getLast?_eq_some_getLast _
    have hhead : (first::rest++[event]).head? = some first := rfl
    simp only [summary,hhead,hlast,List.head?_cons,List.getLast?_concat,List.map_append,
      List.map_singleton,lastSome_concat]
    rfl

section Steps

variable {h : History}

theorem Inv.conn_eq (hi : Inv h) : h.conn = ⟨h.conn.committed,none⟩ := by
  rw [← hi.idle]

theorem Inv.record (hi : Inv h) (event : NewTaskHistoryEvent) :
    Inv ⟨⟨upsertJob event (insertEvent event h.conn.committed),none⟩,h.recorded++[event]⟩ where
  idle := rfl
  jobs jobId := by
    simp only [upsertJob,insertEvent,eventsOf_concat]
    by_cases hj : event.jobId = jobId
    · subst hj
      rw [if_pos rfl,Function.update_self,hi.jobs,summary_concat]
    · rw [if_neg hj,Function.update_of_ne (Ne.symm hj)]
      exact hi.jobs jobId
  events := by
    simp [upsertJob,insertEvent,rowData,eventData,hi.events]

theorem Inv.source (hi : Inv h) {jobId : String} {row : JobRow}
    (hr : h.conn.committed.jobs jobId = some row) : isRemote row = false := by
  rw [hi.jobs] at hr
  unfold summary at hr
  split at hr
  · rename_i last _ _
    cases hr
    cases last.source <;> simp [isRemote,TaskHistorySource.asStr]
  · cases hr

/-- Opening the store again finds nothing to remove. -/
theorem Inv.purge (hi : Inv h) :
    deleteRemoteJobs (deleteRemoteEvents h.conn.committed) = h.conn.committed := by
  have hjobs : ∀ jobId, (h.conn.committed.jobs jobId).filter (fun row => !isRemote row) =
      h.conn.committed.jobs jobId := by
    intro jobId
    cases hr : h.conn.committed.jobs jobId with
    | none => rfl
    | some row => simp [hi.source hr]
  have hevents : h.conn.committed.events.filter
      (fun event => !(h.conn.committed.jobs event.jobId).any isRemote) =
        h.conn.committed.events := by
    rw [List.filter_eq_self]
    intro event _
    cases hr : h.conn.committed.jobs event.jobId with
    | none => rfl
    | some row => simp [hi.source hr]
  simp [deleteRemoteJobs,deleteRemoteEvents,hjobs,hevents]

/-- A call has its whole effect on both tables, or none. -/
theorem perform_rule (hi : Inv h) (o : Outcomes) (call : Call) :
    Ensures (perform o call) h.conn (fun _ t => Inv ⟨t,call.keep h.recorded⟩)
      (fun _ t => t = h.conn) := by
  rw [hi.conn_eq]
  cases call with
  | recordEvent event =>
    refine (twoStatements_rule _ _).mono ?_ (fun _ _ h => h)
    rintro _ t rfl
    exact hi.record event
  | clear =>
    refine (twoStatements_rule _ _).mono ?_ (fun _ _ h => h)
    rintro _ t rfl
    exact ⟨rfl,fun jobId => rfl,rfl⟩
  | reopen =>
    refine (twoStatements_rule _ _).mono ?_ (fun _ _ h => h)
    rintro _ t rfl
    rw [hi.purge]
    exact ⟨rfl,hi.jobs,hi.events⟩

theorem perform_error (hi : Inv h) {o : Outcomes} {call : Call} {error : String}
    {conn : Connection Database} (he : perform o call h.conn = .error error conn) :
    conn = h.conn := by
  have hr := perform_rule hi o call
  unfold Ensures at hr
  rw [he] at hr
  exact hr

theorem step_inv (hi : Inv h) (call : Call × Outcomes) : Inv (step h call) := by
  have hr := perform_rule hi call.2 call.1
  unfold Ensures at hr
  unfold step
  split at hr
  · rename_i hp
    rw [hp]
    exact hr
  · rename_i hp
    rw [hp,hr]
    exact hi

theorem foldl_inv (hi : Inv h) (calls : List (Call × Outcomes)) : Inv (calls.foldl step h) := by
  induction calls generalizing h with
  | nil => exact hi
  | cons call calls ih => exact ih (step_inv hi call)

end Steps

theorem history_inv (calls : List (Call × Outcomes)) : Inv (history calls) :=
  foldl_inv ⟨rfl,fun _ => rfl,rfl⟩ calls

/-- After any history the row of a job is the summary of the events recorded for it
since the last clearing, the events table holds them all, and a call that fails next
changes neither table. -/
theorem task_history_summarizes (calls : List (Call × Outcomes)) :
    (∀ jobId, ((history calls).conn.committed.jobs jobId).isSome = true ↔
      ∃ event ∈ (history calls).recorded, event.jobId = jobId) ∧
    (∀ jobId row, (history calls).conn.committed.jobs jobId = some row →
      ∃ first last, (eventsOf jobId (history calls).recorded).head? = some first ∧
        (eventsOf jobId (history calls).recorded).getLast? = some last ∧
        row.currentStatus = last.status.asStr ∧ row.currentMessage = last.message ∧
        row.source = last.source.asStr ∧ row.updatedAt = last.occurredAt ∧
        row.createdAt = first.occurredAt ∧
        row.requestId = lastSome ((eventsOf jobId (history calls).recorded).map
          NewTaskHistoryEvent.requestId) ∧
        row.batchId = lastSome ((eventsOf jobId (history calls).recorded).map
          NewTaskHistoryEvent.batchId) ∧
        row.printerName = lastSome ((eventsOf jobId (history calls).recorded).map
          NewTaskHistoryEvent.printerName) ∧
        row.paperName = lastSome ((eventsOf jobId (history calls).recorded).map
          NewTaskHistoryEvent.paperName) ∧
        row.copies = lastSome ((eventsOf jobId (history calls).recorded).map
          NewTaskHistoryEvent.copies)) ∧
    (history calls).conn.committed.events.map rowData =
      (history calls).recorded.map eventData ∧
    (∀ o call error conn, perform o call (history calls).conn = .error error conn →
      conn.committed = (history calls).conn.committed) := by
  have hi := history_inv calls
  refine ⟨?_,?_,hi.events,?_⟩
  · intro jobId
    rw [hi.jobs,← not_iff_not]
    simp only [Bool.not_eq_true,Option.isSome_eq_false_iff,Option.isNone_iff_eq_none,summary_none,
      eventsOf]
    simp
  · intro jobId row hr
    rw [hi.jobs] at hr
    unfold summary at hr
    split at hr
    · rename_i first last hf hl
      cases hr
      exact ⟨first,last,hf,hl,rfl,rfl,rfl,rfl,rfl,rfl,rfl,rfl,rfl,rfl⟩
    · cases hr
  · intro o call error conn he
    rw [perform_error hi he]

section Finishing

/-- A row tells by its finishing time whether the job is finished, and when. -/
def FinishedAgrees (h : History) : Prop :=
  ∀ jobId row, h.conn.committed.jobs jobId = some row →
    (row.finishedAt.isSome = true ↔ ∃ status,
      TaskHistoryStatus.fromStorageStr row.currentStatus = some status ∧
        status.isTerminal = true) ∧
    (row.finishedAt.isSome = true → row.finishedAt =
      ((h.conn.committed.events.filter (fun event => event.jobId == jobId)).getLast?).map
        EventRow.occurredAt)

/-- The call does not report progress of a job that has ended. -/
def Continues (h : History) : Call → Prop
  | .recordEvent event => event.status.isTerminal = false →
      ∀ e ∈ h.recorded, e.jobId = event.jobId → e.status.isTerminal = false
  | _ => True

def Succeeds (h : History) (call : Call × Outcomes) : Prop :=
  ∃ conn, perform call.2 call.1 h.conn = .ok ⟨⟩ conn

/-- No job that has ended is under way again. -/
def NoneRevived (recorded : List NewTaskHistoryEvent) : Prop :=
  ∀ jobId last, (eventsOf jobId recorded).getLast? = some last → last.status.isTerminal = false →
    ∀ e ∈ eventsOf jobId recorded, e.status.isTerminal = false

variable {h : History} {recorded : List NewTaskHistoryEvent}

theorem lastSome_none {events : List NewTaskHistoryEvent} :
    lastSome (events.map finishedAt) = none ↔ ∀ e ∈ events, e.status.isTerminal = false := by
  simp [lastSome,finishedAt]

theorem lastEvent_time (hi : Inv h) (jobId : String) :
    ((h.conn.committed.events.filter (fun event => event.jobId == jobId)).getLast?).map
        EventRow.occurredAt =
      ((eventsOf jobId h.recorded).getLast?).map NewTaskHistoryEvent.occurredAt := by
  have hrows : (h.conn.committed.events.filter (fun event => event.jobId == jobId)).map rowData =
      (eventsOf jobId h.recorded).map eventData := by
    have hf := congrArg (List.filter (fun data => data.1 == jobId)) hi.events
    rwa [List.filter_map,List.filter_map] at hf
  have hlast := congrArg (fun rows => (rows.getLast?).map (fun data => data.2.2.2)) hrows
  simpa [List.getLast?_map,Function.comp_def,rowData,eventData] using hlast

theorem summary_finished {jobId : String} {events : List NewTaskHistoryEvent} {row : JobRow}
    (hr : summary jobId events = some row) : ∃ before last, events = before++[last] ∧
      row.currentStatus = last.status.asStr ∧
      row.finishedAt = (finishedAt last).or (lastSome (before.map finishedAt)) := by
  unfold summary at hr
  split at hr
  · rename_i first last hf hl
    obtain ⟨before,rfl⟩ := List.getLast?_eq_some_iff.mp hl
    cases hr
    exact ⟨before,last,rfl,rfl,by simp [lastSome_concat]⟩
  · cases hr

theorem finishedAgrees_iff (hi : Inv h) : FinishedAgrees h ↔ NoneRevived h.recorded := by
  constructor
  · intro hall jobId last hl hrun
    cases hr : h.conn.committed.jobs jobId with
    | none =>
      rw [hi.jobs,summary_none] at hr
      simp [hr]
    | some row =>
      obtain ⟨hiff,-⟩ := hall jobId row hr
      rw [hi.jobs] at hr
      obtain ⟨before,other,he,hs,hf⟩ := summary_finished hr
      obtain rfl : other = last := by simpa [he] using hl
      have hnone : row.finishedAt = none := by
        rw [← Option.not_isSome_iff_eq_none,hiff,hs,fromStorageStr_asStr]
        simp [hrun]
      rw [← lastSome_none,he,List.map_append,List.map_singleton,lastSome_concat,← hf]
      exact hnone
  · intro hnr jobId row hr
    rw [hi.jobs] at hr
    obtain ⟨before,last,he,hs,hf⟩ := summary_finished hr
    have hl : (eventsOf jobId h.recorded).getLast? = some last := by simp [he]
    by_cases hterm : last.status.isTerminal = true
    · have hfin : row.finishedAt = some last.occurredAt := by simp [hf,finishedAt,hterm]
      refine ⟨by simp [hfin,hs,hterm],fun _ => ?_⟩
      rw [lastEvent_time hi,hl,hfin]
      rfl
    · have hrun : last.status.isTerminal = false := by simpa using hterm
      have hnone : row.finishedAt = none := by
        have hall := lastSome_none.mpr (hnr jobId last hl hrun)
        rwa [he,List.map_append,List.map_singleton,lastSome_concat,← hf] at hall
      exact ⟨by simp [hnone,hs,hrun],by simp [hnone]⟩

theorem noneRevived_concat (hn : NoneRevived recorded) (event : NewTaskHistoryEvent) :
    NoneRevived (recorded++[event]) ↔ (event.status.isTerminal = false →
      ∀ e ∈ recorded, e.jobId = event.jobId → e.status.isTerminal = false) := by
  constructor
  · intro h hrun e he hj
    refine h event.jobId event (by simp [eventsOf_concat]) hrun e ?_
    simp [eventsOf,he,hj]
  · intro h jobId last hl hrun e he
    rw [eventsOf_concat] at hl he
    split_ifs at hl he with hj
    · obtain rfl : event = last := by simpa using hl
      rcases List.mem_append.mp he with he|he
      · obtain ⟨hm,hid⟩ := List.mem_filter.mp he
        exact h hrun e hm (by simpa [hj] using hid)
      · rw [List.mem_singleton.mp he]
        exact hrun
    · exact hn jobId last hl hrun e he

theorem step_recorded (call : Call × Outcomes) :
    (Succeeds h call ∧ (step h call).recorded = call.1.keep h.recorded) ∨
      (¬Succeeds h call ∧ (step h call).recorded = h.recorded) := by
  unfold Succeeds step
  cases hp : perform call.2 call.1 h.conn with
  | ok a conn => exact Or.inl ⟨⟨conn,rfl⟩,rfl⟩
  | error error conn =>
    refine Or.inr ⟨?_,rfl⟩
    rintro ⟨_,h⟩
    cases h

/-- One call keeps the rows right exactly when it does not revive a job. -/
theorem step_noneRevived (hn : NoneRevived h.recorded) (call : Call × Outcomes) :
    NoneRevived (step h call).recorded ↔ (Succeeds h call → Continues h call.1) := by
  rcases step_recorded call with ⟨hs,hr⟩|⟨hs,hr⟩
  · rw [hr]
    obtain ⟨call,o⟩ := call
    cases call with
    | recordEvent event =>
      simp only [Call.keep,noneRevived_concat hn,Continues]
      exact ⟨fun h _ => h,fun h => h hs⟩
    | clear => simp [Call.keep,NoneRevived,eventsOf,Continues]
    | reopen => simp [Call.keep,Continues,hn]
  · rw [hr]
    exact iff_of_true hn (fun h => absurd h hs)

end Finishing

theorem history_concat (calls : List (Call × Outcomes)) (call : Call × Outcomes) :
    history (calls++[call]) = step (history calls) call := by
  simp [history]

/-- The finishing times are right in every state of a history exactly when no event of
a running job is recorded after the end of the same job. -/
theorem finished_at_agrees_iff (calls : List (Call × Outcomes)) :
    (∀ before after, calls = before++after → FinishedAgrees (history before)) ↔
      ∀ before call after, calls = before++call::after →
        Succeeds (history before) call → Continues (history before) call.1 := by
  have hiff : ∀ before, FinishedAgrees (history before) ↔ NoneRevived (history before).recorded :=
    fun before => finishedAgrees_iff (history_inv before)
  constructor
  · intro hall before call after hc
    have hb := (hiff before).mp (hall before (call::after) hc)
    have ha := (hiff (before++[call])).mp (hall (before++[call]) after (by simpa using hc))
    rw [history_concat] at ha
    exact (step_noneRevived hb call).mp ha
  · intro hall before
    induction before using List.reverseRecOn with
    | nil =>
      intro after _
      rw [hiff]
      simp [history,NoneRevived,eventsOf]
    | append_singleton before call ih =>
      intro after hc
      have hb := (hiff before).mp (ih (call::after) (by simpa using hc))
      rw [hiff,history_concat,step_noneRevived hb]
      exact hall before call after (by simpa using hc)

def labelEvent (status : TaskHistoryStatus) (occurredAt : String) : NewTaskHistoryEvent where
  jobId := "LABEL-1"
  requestId := some "REQ-LABEL"
  batchId := none
  source := .webSocket
  status := status
  message := some status.asStr
  printerName := none
  paperName := none
  copies := none
  occurredAt := occurredAt

/-- A job is completed, the agent is restarted, and the same identifier is queued
again. -/
def reusedJob : List (Call × Outcomes) :=
  [(.recordEvent (labelEvent .queued "2026-07-06T10:00:00Z"),{}),
    (.recordEvent (labelEvent .completed "2026-07-06T10:03:00Z"),{}),
    (.reopen,{}),
    (.recordEvent (labelEvent .queued "2026-07-06T11:00:00Z"),{})]

theorem reusedJob_row : ((history reusedJob).conn.committed.jobs "LABEL-1").map
    (fun row => (row.currentStatus,row.finishedAt)) =
      some ("queued",some "2026-07-06T10:03:00Z") := by
  decide +kernel

theorem reused_job_stays_finished : ¬∀ calls, FinishedAgrees (history calls) := by
  intro hall
  have hrow := reusedJob_row
  obtain ⟨row,hr,hdata⟩ := Option.map_eq_some_iff.mp hrow
  obtain ⟨hs,hf⟩ := Prod.mk.inj hdata
  obtain ⟨status,hstatus,hterm⟩ := ((hall reusedJob "LABEL-1" row hr).1).mp (by simp [hf])
  rw [hs] at hstatus
  obtain rfl : TaskHistoryStatus.queued = status := Option.some.inj hstatus
  cases hterm

end YinShu.TaskSummary
