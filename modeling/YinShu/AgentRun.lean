import YinShu.QueueHistory
import YinShu.StatusTrace
import YinShu.TaskSummary
import YinShu.WorkerCalls
import YinShu.WorkerSteps

/-!
# Runs of the agent

Messages are accepted, the worker fetches jobs and processes them with any
outcome of the host, and the user clears the history, in any order. Over a
whole run the calls of the print backend and the reported statuses are those
of the fetched jobs, one job after the other in the order of acceptance. The
`accepted` list records history; no step reads it.
-/

set_option autoImplicit false

namespace YinShu.AgentRun
open YinShu.Protocol YinShu.PrintQueue YinShu.QueueHistory YinShu.FifoLedger YinShu.Settings
open YinShu.ErrorState YinShu.HtmlRender YinShu.TaskHistory YinShu.TaskHistoryStore
open YinShu.PrintWorker YinShu.StatusTrace YinShu.WorkerCalls YinShu.WorkerSteps

structure Agent where
  queue : QueueState
  world : World
  store : TaskSummary.History
  accepted : List QueuedJob

inductive Event where
  | accept (op : Op)
  | work (host : Host) (config : AgentConfig) (saves : ℕ → Outcomes)
  | clear (outcomes : Outcomes)

/-- The calls that write events to the history store, with the outcome of each. -/
def records (saves : ℕ → Outcomes) (events : List NewTaskHistoryEvent) :
    List (TaskSummary.Call × Outcomes) :=
  events.mapIdx (fun i event => (.recordEvent event,saves i))

/-- Jobs are processed with a history attached, which accepts every write. -/
def Event.Attached : Event → Prop
  | .work host _ saves => host.taskHistory = true ∧ ∀ i, saves i = {}
  | _ => True

def acceptStep (p : Parsers) (op : Op) (a : Agent) : Agent :=
  if op = .popNext then a
  else { a with
    queue := (perform p op a.queue).2
    accepted := a.accepted++acceptedJobs p [(op,(perform p op a.queue).1)] }

/-- One iteration of the worker loop. -/
def workStep (host : Host) (config : AgentConfig) (saves : ℕ → Outcomes) (a : Agent) : Agent :=
  match popNext a.queue with
  | (none,_) => a
  | (some queued,rest) =>
    let world := processJob host queued config a.world
    { a with
      queue := rest
      world := world
      store := (records saves (world.history.drop a.world.history.length)).foldl
        TaskSummary.step a.store }

def step (p : Parsers) (a : Agent) : Event → Agent
  | .accept op => acceptStep p op a
  | .work host config saves => workStep host config saves a
  | .clear outcomes => { a with store := TaskSummary.step a.store (.clear,outcomes) }

def initial (w : World) : Agent :=
  ⟨{},{ w with logs := [], history := [], renders := [], prints := [] },
    ⟨⟨Database.empty,none⟩,[]⟩,[]⟩

/-- A job that the worker has been through: with which host and configuration, what it
reported, and what it asked of the print backend. -/
structure Done where
  queued : QueuedJob
  host : Host
  config : AgentConfig
  trace : List JobStatus
  calls : List PrintCall

def Done.jobId (d : Done) : String := d.queued.jobId

def Done.reported (d : Done) : List TaskHistoryStatus := d.trace.map taskHistoryStatus

structure Done.Lawful (d : Done) : Prop where
  trace : WellFormed d.queued.job.format d.trace d.calls
  calls : ∀ call ∈ d.calls, PrintAsked d.host d.queued d.config call.request

structure Inv (p : Parsers) (a : Agent) (done : List Done) : Prop where
  queue : ∃ l : Ledger QueuedJob.jobId, ∃ batchIds, Represents a.queue l batchIds ∧
    l.accepted = a.accepted ∧ l.popped = done.map Done.queued
  statuses : statuses a.world = done.flatMap Done.trace
  prints : a.world.prints = done.flatMap Done.calls
  lawful : ∀ d ∈ done, d.Lawful

variable {p : Parsers} {a : Agent} {done : List Done}

theorem processJob_called (host : Host) (q : QueuedJob) (config : AgentConfig) (w : World) :
    Called (RenderAsked host q config) (PrintAsked host q config) w
      (processJob host q config w) := by
  have hw : Called (RenderAsked host q config) (PrintAsked host q config) w
      (pushLogWithPrintMetadata host q .queued "queued" none w) := called_of_eq rfl rfl
  have hi := processJobInner_called host q config
    (pushLogWithPrintMetadata host q .queued "queued" none w)
  unfold Ensures at hi
  unfold processJob
  split at hi
  · rename_i hrun
    simpa [hrun] using hw.trans hi
  · rename_i error t hrun
    have ht : Called (RenderAsked host q config) (PrintAsked host q config) t
        (pushLogWithPrintMetadata host q .failed error.message none t) := called_of_eq rfl rfl
    simpa [hrun] using (hw.trans hi.1).trans ht

/-- What one job adds to the world. -/
theorem processJob_done (host : Host) (q : QueuedJob) (config : AgentConfig) (w : World) :
    ∃ d : Done, d.queued = q ∧ d.host = host ∧ d.Lawful ∧
      Reported q w (processJob host q config w) d.trace d.calls := by
  obtain ⟨trace,calls,hr,hw⟩ := processJob_reported host q config w
  obtain ⟨-,calls',hp,hasked⟩ := processJob_called host q config w
  have hcalls : calls' = calls := List.append_cancel_left (hp.symm.trans hr.2)
  exact ⟨⟨q,host,config,trace,calls⟩,rfl,rfl,⟨hw,hcalls ▸ hasked⟩,hr⟩

theorem initial_inv (p : Parsers) (w : World) : Inv p (initial w) [] where
  queue := ⟨Ledger.empty _,[],empty_represents,rfl,rfl⟩
  statuses := rfl
  prints := rfl
  lawful := by simp

theorem Inv.accept (h : Inv p a done) (op : Op) : Inv p (acceptStep p op a) done := by
  unfold acceptStep
  split_ifs with hop
  · exact h
  · obtain ⟨l,batchIds,hr,hacc,hpop⟩ := h.queue
    obtain ⟨l',hacc',hpop',hr'⟩ := perform_represents p op a.queue l batchIds hr
    refine ⟨⟨l',_,hr',by rw [hacc',hacc],?_⟩,h.statuses,h.prints,h.lawful⟩
    have hnone : poppedJobs [(op,(perform p op a.queue).1)] = [] := by
      cases op <;> first | exact absurd rfl hop | rfl
    rw [hpop',hnone,List.append_nil,hpop]

theorem workStep_cases (host : Host) (config : AgentConfig) (saves : ℕ → Outcomes) (a : Agent) :
    (a.queue.pending = [] ∧ workStep host config saves a = a) ∨
    ∃ queued rest, a.queue.pending = queued::rest ∧ workStep host config saves a = { a with
      queue := { a.queue with pending := rest }
      world := processJob host queued config a.world
      store := (records saves ((processJob host queued config a.world).history.drop
        a.world.history.length)).foldl TaskSummary.step a.store } := by
  unfold workStep
  rcases popNext_spec a.queue with ⟨he,hpop⟩ | ⟨queued,rest,hq,hpop⟩
  · exact Or.inl ⟨he,by rw [hpop]⟩
  · exact Or.inr ⟨queued,rest,hq,by rw [hpop]⟩

/-- The worker has been through one more job. -/
theorem Inv.concat (h : Inv p a done) {queued : QueuedJob} {rest : List QueuedJob}
    (hq : a.queue.pending = queued::rest) {world : World} {d : Done} (hd : d.queued = queued)
    (hl : d.Lawful) (hrep : Reported queued a.world world d.trace d.calls)
    (store : TaskSummary.History) :
    Inv p { a with queue := { a.queue with pending := rest }, world := world, store := store }
      (done++[d]) := by
  obtain ⟨l,batchIds,hr,hacc,hpop⟩ := h.queue
  obtain ⟨l',hacc',hpop',hr'⟩ := pop_represents a.queue l batchIds hr queued rest hq
  refine ⟨⟨l',batchIds,hr',hacc'.trans hacc,?_⟩,?_,?_,?_⟩
  · rw [hpop',hpop,← hd,List.map_append]
    rfl
  · rw [hrep.statuses_eq,h.statuses,List.flatMap_append]
    simp
  · rw [hrep.2,h.prints,List.flatMap_append]
    simp
  · intro d' hm
    rcases List.mem_append.mp hm with hm | hm
    · exact h.lawful d' hm
    · rwa [List.mem_singleton.mp hm]

theorem Inv.work (h : Inv p a done) (host : Host) (config : AgentConfig) (saves : ℕ → Outcomes) :
    ∃ more, Inv p (workStep host config saves a) (done++more) := by
  rcases workStep_cases host config saves a with ⟨-,hs⟩ | ⟨queued,rest,hq,hs⟩
  · exact ⟨[],by rwa [hs,List.append_nil]⟩
  · obtain ⟨d,hd,-,hl,hrep⟩ := processJob_done host queued config a.world
    exact ⟨[d],hs ▸ h.concat hq hd hl hrep _⟩

theorem Inv.step (h : Inv p a done) (event : Event) :
    ∃ more, Inv p (AgentRun.step p a event) (done++more) := by
  cases event with
  | accept op => exact ⟨[],by simpa [AgentRun.step] using h.accept op⟩
  | work host config saves => exact h.work host config saves
  | clear outcomes =>
    rw [← List.append_nil done] at h
    exact ⟨[],h.queue,h.statuses,h.prints,h.lawful⟩

theorem run_inv (events : List Event) (h : Inv p a done) :
    ∃ more, Inv p (events.foldl (AgentRun.step p) a) (done++more) := by
  induction events generalizing a done with
  | nil => exact ⟨[],by simpa using h⟩
  | cons event events ih =>
    obtain ⟨d,hd⟩ := h.step event
    obtain ⟨more,hm⟩ := ih hd
    exact ⟨d++more,by simpa using hm⟩

/-- Over a whole run, every accepted job waits or has been processed, once and in the
order of acceptance. What was reported and what was asked of the print backend is
that of the processed jobs, one after the other, with at most one call for each. -/
theorem printed_at_most_once (p : Parsers) (w : World) (events : List Event) :
    ∃ done : List Done,
      done.map Done.queued++(events.foldl (AgentRun.step p) (initial w)).queue.pending =
        (events.foldl (AgentRun.step p) (initial w)).accepted ∧
      ((events.foldl (AgentRun.step p) (initial w)).accepted.map QueuedJob.jobId).Nodup ∧
      statuses (events.foldl (AgentRun.step p) (initial w)).world = done.flatMap Done.trace ∧
      (events.foldl (AgentRun.step p) (initial w)).world.prints = done.flatMap Done.calls ∧
      ∀ d ∈ done, d.Lawful := by
  obtain ⟨done,h⟩ := run_inv events (initial_inv p w)
  rw [List.nil_append] at h
  obtain ⟨l,batchIds,hr,hacc,hpop⟩ := h.queue
  refine ⟨done,?_,?_,h.statuses,h.prints,h.lawful⟩
  · rw [← hacc,← hpop,hr.waiting]
    exact popped_append_pending l
  · rw [← hacc]
    exact l.nodup

end YinShu.AgentRun
