import YinShu.AgentRun
import YinShu.TempFiles

/-!
# The task history of a run

When every job is processed with the history attached and every write to it
succeeds, the recorded events are those of the jobs since the last clearing,
one job after the other. Identifiers are accepted once, so the events of a row
are the trace of one job: a waiting job has no row, and each row shows the
final status of its job and the time at which it was reached.
-/

set_option autoImplicit false

namespace YinShu.AgentHistory
open YinShu.Protocol YinShu.PrintModel YinShu.PrintQueue YinShu.QueueHistory YinShu.FifoLedger
open YinShu.Settings YinShu.ErrorState YinShu.TaskHistory YinShu.TaskHistoryStore
open YinShu.PrintWorker YinShu.StatusTrace YinShu.WorkerSteps YinShu.AgentRun
open YinShu.TempFiles

def recordedKey (event : NewTaskHistoryEvent) : String × TaskHistoryStatus :=
  (event.jobId,event.status)

/-- The history holds the events of the jobs processed since the last clearing. -/
structure Filed (p : Parsers) (a : Agent) (before since : List Done) : Prop where
  run : Inv p a (before++since)
  store : TaskSummary.Inv a.store
  recorded : a.store.recorded.map recordedKey = since.flatMap (keyed Done.jobId Done.reported)

theorem step_succeeds {h : TaskSummary.History} (hi : TaskSummary.Inv h)
    (event : NewTaskHistoryEvent) :
    (TaskSummary.step h (.recordEvent event,{})).recorded = h.recorded++[event] := by
  rcases TaskSummary.step_recorded (h := h) (.recordEvent event,{}) with ⟨-,hr⟩ | ⟨hs,-⟩
  · exact hr
  · refine absurd ?_ hs
    unfold TaskSummary.Succeeds
    rw [hi.conn_eq]
    exact ⟨_,rfl⟩

theorem records_attached {saves : ℕ → Outcomes} (hs : ∀ i, saves i = {})
    (events : List NewTaskHistoryEvent) :
    records saves events = events.map (fun event => (.recordEvent event,{})) := by
  simp only [records,hs]
  induction events with
  | nil => rfl
  | cons event events ih => rw [List.mapIdx_cons,ih,List.map_cons]

theorem foldl_recorded {h : TaskSummary.History} (hi : TaskSummary.Inv h)
    (events : List NewTaskHistoryEvent) :
    ((events.map (fun event => (TaskSummary.Call.recordEvent event,({} : Outcomes)))).foldl
      TaskSummary.step h).recorded = h.recorded++events := by
  induction events generalizing h with
  | nil => simp
  | cons event events ih =>
    rw [List.map_cons,List.foldl_cons,ih (TaskSummary.step_inv hi _),step_succeeds hi]
    simp

/-- The events of a job carry its identifier and the statuses of its trace. -/
theorem mirrored_keys {host : Host} {config : AgentConfig} {w : World} {d : Done}
    (ha : host.taskHistory = true)
    (hrep : Reported d.queued w (processJob host d.queued config w) d.trace d.calls) :
    ((processJob host d.queued config w).history.drop w.history.length).map recordedKey =
      keyed Done.jobId Done.reported d := by
  obtain ⟨entries,events,hl,hh,hk⟩ := mirrored_of_steps ha (processJob_steps host d.queued config w)
  obtain ⟨⟨entries',hl',ht,-⟩,-⟩ := hrep
  obtain rfl : entries' = entries := List.append_cancel_left (hl'.symm.trans hl)
  rw [hh,List.drop_left]
  have hkeys := congrArg (List.map (fun key => (key.1,key.2.1))) hk
  rw [List.map_map,List.map_map] at hkeys
  simp only [keyed,Done.reported,← ht,List.map_map]
  exact hkeys

variable {p : Parsers} {a : Agent} {before since : List Done}

theorem Filed.work (h : Filed p a before since) (host : Host) (config : AgentConfig)
    {saves : ℕ → Outcomes} (ha : host.taskHistory = true) (hs : ∀ i, saves i = {}) :
    ∃ more, Filed p (workStep host config saves a) before (since++more) := by
  rcases workStep_cases host config saves a with ⟨-,hw⟩ | ⟨queued,rest,hq,hw⟩
  · exact ⟨[],by rwa [hw,List.append_nil]⟩
  · obtain ⟨d,rfl,-,hl,hrep⟩ := processJob_done host queued config a.world
    refine ⟨[d],?_,?_,?_⟩
    · rw [hw,← List.append_assoc]
      exact h.run.concat hq rfl hl hrep _
    · rw [hw]
      exact TaskSummary.foldl_inv h.store _
    · rw [hw,records_attached hs]
      simp only [foldl_recorded h.store,List.map_append,h.recorded,mirrored_keys ha hrep,
        List.flatMap_append,List.flatMap_singleton]

/-- A clearing forgets what was filed, or fails and leaves it. -/
theorem Filed.clear (h : Filed p a before since) (outcomes : Outcomes) :
    ∃ before' since', Filed p (AgentRun.step p a (.clear outcomes)) before' since' := by
  have hstore : TaskSummary.Inv (TaskSummary.step a.store (.clear,outcomes)) :=
    TaskSummary.step_inv h.store _
  have hrun := h.run
  rcases TaskSummary.step_recorded (h := a.store) (.clear,outcomes) with ⟨-,hr⟩ | ⟨-,hr⟩
  · refine ⟨before++since,[],?_,hstore,?_⟩
    · rw [List.append_nil]
      exact ⟨hrun.queue,hrun.statuses,hrun.prints,hrun.lawful⟩
    · simp [AgentRun.step,hr,TaskSummary.Call.keep]
  · exact ⟨before,since,⟨hrun.queue,hrun.statuses,hrun.prints,hrun.lawful⟩,hstore,
      (congrArg _ hr).trans h.recorded⟩

theorem Filed.step (h : Filed p a before since) (event : Event) (ha : event.Attached) :
    ∃ before' since', Filed p (AgentRun.step p a event) before' since' ∧
      ((∀ outcomes, event ≠ .clear outcomes) → before' = before) := by
  cases event with
  | accept op =>
    have hsame : (acceptStep p op a).store = a.store := by
      unfold acceptStep
      split_ifs <;> rfl
    exact ⟨before,since,⟨h.run.accept op,hsame ▸ h.store,hsame ▸ h.recorded⟩,fun _ => rfl⟩
  | work host config saves =>
    obtain ⟨more,hm⟩ := h.work host config ha.1 ha.2
    exact ⟨before,_,hm,fun _ => rfl⟩
  | clear outcomes =>
    obtain ⟨before',since',hf⟩ := h.clear outcomes
    exact ⟨before',since',hf,fun hc => absurd rfl (hc outcomes)⟩

theorem run_filed (events : List Event) (h : Filed p a before since)
    (ha : ∀ event ∈ events, event.Attached) :
    ∃ before' since', Filed p (events.foldl (AgentRun.step p) a) before' since' ∧
      ((∀ outcomes, .clear outcomes ∉ events) → before' = before) := by
  induction events generalizing a before since with
  | nil => exact ⟨before,since,h,fun _ => rfl⟩
  | cons event events ih =>
    obtain ⟨b,s,hf,hb⟩ := h.step event (ha event (by simp))
    obtain ⟨b',s',hf',hb'⟩ := ih hf (fun e he => ha e (by simp [he]))
    refine ⟨b',s',hf',fun hc => ?_⟩
    rw [hb' (fun outcomes hm => hc outcomes (by simp [hm])),hb]
    rintro outcomes rfl
    exact hc outcomes (by simp)

theorem initial_filed (p : Parsers) (w : World) : Filed p (initial w) [] [] where
  run := initial_inv p w
  store := TaskSummary.history_inv []
  recorded := rfl

section Rows

theorem eventsOf_keys (jobId : String) (recorded : List NewTaskHistoryEvent) :
    (TaskSummary.eventsOf jobId recorded).map recordedKey =
      (recorded.map recordedKey).filter (fun key => key.1 == jobId) := by
  rw [List.filter_map]
  rfl

theorem Filed.row_none (h : Filed p a before since) {jobId : String}
    (hj : jobId ∉ since.map Done.jobId) : a.store.conn.committed.jobs jobId = none := by
  rw [h.store.jobs,TaskSummary.summary_none,← List.map_eq_nil_iff,eventsOf_keys,h.recorded,
    filter_blocks_none _ _ hj]

theorem Filed.events (h : Filed p a before since) (hn : (since.map Done.jobId).Nodup) {d : Done}
    (hd : d ∈ since) : (TaskSummary.eventsOf d.jobId a.store.recorded).map recordedKey =
      keyed Done.jobId Done.reported d := by
  rw [eventsOf_keys,h.recorded,filter_blocks since hn hd]

theorem Filed.row_isSome (h : Filed p a before since) (hn : (since.map Done.jobId).Nodup)
    {d : Done} (hd : d ∈ since) : (a.store.conn.committed.jobs d.jobId).isSome = true := by
  have hl := (h.run.lawful d (by simp [hd])).trace.last
  rw [h.store.jobs,Option.isSome_iff_ne_none,ne_eq,TaskSummary.summary_none,
    ← List.map_eq_nil_iff,h.events hn hd]
  obtain ⟨status,hs,-⟩ := hl
  intro he
  simp only [keyed,Done.reported,List.map_eq_nil_iff] at he
  simp [he] at hs

/-- The row of a filed job shows its last status, and finished when it was reached. -/
theorem Filed.row_final (h : Filed p a before since) (hn : (since.map Done.jobId).Nodup)
    {d : Done} (hd : d ∈ since) {row : JobRow}
    (hr : a.store.conn.committed.jobs d.jobId = some row) :
    ∃ last, d.trace.getLast? = some last ∧
      row.currentStatus = (taskHistoryStatus last).asStr ∧
      row.finishedAt = some row.updatedAt := by
  obtain ⟨status,hs,hterm⟩ := (h.run.lawful d (by simp [hd])).trace.last
  have hkeys := h.events hn hd
  rw [h.store.jobs] at hr
  unfold TaskSummary.summary at hr
  split at hr
  · rename_i first last hf hlast
    have hstatus : last.status = taskHistoryStatus status := by
      have hk := congrArg List.getLast? hkeys
      simp only [List.getLast?_map,hlast,keyed,Done.reported,hs,Option.map_some] at hk
      exact (Prod.mk.inj (Option.some.inj hk)).2
    obtain ⟨earlier,he⟩ := List.getLast?_eq_some_iff.mp hlast
    have hfin : TaskSummary.lastSome ((TaskSummary.eventsOf d.jobId a.store.recorded).map
        finishedAt) = some last.occurredAt := by
      rw [he,List.map_append,List.map_singleton,TaskSummary.lastSome_concat,finishedAt,hstatus,
        if_pos hterm]
      rfl
    cases hr
    exact ⟨status,hs,by rw [hstatus],hfin⟩
  · cases hr

end Rows

/-- With a history that accepts every write, a waiting job has no row, a row shows the
final status of its job and when that was reached, and without a clearing every
processed job has one. -/
theorem history_follows_jobs (p : Parsers) (w : World) (events : List Event)
    (ha : ∀ event ∈ events, event.Attached) :
    ∃ done : List Done,
      done.map Done.queued++(events.foldl (AgentRun.step p) (initial w)).queue.pending =
        (events.foldl (AgentRun.step p) (initial w)).accepted ∧
      (∀ queued ∈ (events.foldl (AgentRun.step p) (initial w)).queue.pending,
        (events.foldl (AgentRun.step p) (initial w)).store.conn.committed.jobs queued.jobId =
          none) ∧
      (∀ jobId row, (events.foldl (AgentRun.step p) (initial w)).store.conn.committed.jobs jobId =
        some row → ∃ d ∈ done, d.jobId = jobId ∧ ∃ last, d.trace.getLast? = some last ∧
          row.currentStatus = (taskHistoryStatus last).asStr ∧
          row.finishedAt = some row.updatedAt) ∧
      ((∀ outcomes, .clear outcomes ∉ events) → ∀ d ∈ done,
        ((events.foldl (AgentRun.step p) (initial w)).store.conn.committed.jobs d.jobId).isSome =
          true) := by
  obtain ⟨before,since,hf,hb⟩ := run_filed events (initial_filed p w) ha
  obtain ⟨l,batchIds,hr,hacc,hpop⟩ := hf.run.queue
  have hall : (before++since).map Done.queued++
      (events.foldl (AgentRun.step p) (initial w)).queue.pending =
        (events.foldl (AgentRun.step p) (initial w)).accepted := by
    rw [← hacc,← hpop,hr.waiting]
    exact popped_append_pending l
  have hnodup : (since.map Done.jobId++(events.foldl (AgentRun.step p)
      (initial w)).queue.pending.map QueuedJob.jobId).Nodup := by
    have hn := l.nodup
    rw [hacc,← hall,List.map_append,List.map_map,List.map_append,List.append_assoc] at hn
    exact hn.of_append_right
  have hsince : (since.map Done.jobId).Nodup := hnodup.of_append_left
  refine ⟨before++since,hall,?_,?_,?_⟩
  · intro queued hq
    exact hf.row_none (fun hm => List.disjoint_of_nodup_append hnodup hm (List.mem_map_of_mem hq))
  · intro jobId row hrow
    have hj : jobId ∈ since.map Done.jobId := by
      by_contra hj
      rw [hf.row_none hj] at hrow
      cases hrow
    obtain ⟨d,hd,rfl⟩ := List.mem_map.mp hj
    exact ⟨d,by simp [hd],rfl,hf.row_final hsince hd hrow⟩
  · intro hc d hd
    rw [hb hc,List.nil_append] at hd
    exact hf.row_isSome hsince hd

def labelEvents : List Event :=
  [.accept (.acceptJob labelJob.requestId labelJob.job),
    .work (labelHost none) AgentConfig.default (fun _ => {}),.clear {},
    .work (labelHost none) AgentConfig.default (fun _ => {})]

/-- A label is accepted and processed, the history is cleared, and the worker finds no
further job. -/
theorem history_follows_jobs_label : ∃ done : List Done,
    done.map Done.queued++(labelEvents.foldl (AgentRun.step (labelHost none).parsers)
      (initial idleWorld)).queue.pending =
        (labelEvents.foldl (AgentRun.step (labelHost none).parsers)
          (initial idleWorld)).accepted := by
  obtain ⟨done,hall,-⟩ := history_follows_jobs (labelHost none).parsers idleWorld labelEvents
    (by simp [labelEvents,Event.Attached,labelHost])
  exact ⟨done,hall⟩

end YinShu.AgentHistory
