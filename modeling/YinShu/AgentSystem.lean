import Mathlib.Logic.Function.Basic
import YinShu.Acceptance
import YinShu.LabelledRun
import YinShu.Signals

/-!
# Connections, worker and queue

The running agent as one labelled machine: any number of socket loops, the
worker loop, the queue they share, the status channel and the notification
permit. A letter is one step of one party, so a word is an interleaving. The
list of acceptances and the `lagged` marks record history; no step reads them.
-/

set_option autoImplicit false

namespace YinShu.AgentSystem
open YinShu.Protocol YinShu.PrintQueue YinShu.Settings YinShu.ClientText YinShu.Signals

def statusEventCapacity : ℕ := 128

inductive Frame where
  | reply (outcome : ClientTextOutcome)
  | event (message : ServerMessage)
  | pong
  deriving DecidableEq

/-- Where a socket loop stands. Between `accepted` and `replying` lies the call
of `notify_one`; the loop reads no status event before it is back at `select`. -/
inductive Phase where
  | unopened
  | select
  | accepted (handled : Handled)
  | replying (outcome : ClientTextOutcome)
  | closed
  deriving DecidableEq

structure Connection where
  origin : Option String := none
  cursor : ℕ := 0
  acceptedJobIds : Finset String := ∅
  phase : Phase := .unopened
  lagged : Bool := false
  sent : List Frame := []
  deriving DecidableEq

inductive WorkerPhase where
  | top
  | popping
  | processing (job : QueuedJob)
  | selecting
  | parked
  | woken
  | stopped
  deriving DecidableEq

/-- A job entered the queue through a connection when the channel had carried
so many entries. -/
structure JobAcceptance where
  conn : ℕ
  jobId : String
  logLength : ℕ
  deriving DecidableEq

structure System where
  queue : QueueState := {}
  permit : Bool := false
  cancelled : Bool := false
  worker : WorkerPhase := .top
  log : List TaskLogEntry := []
  conns : ℕ → Connection := fun _ => {}
  acceptances : List JobAcceptance := []

inductive SocketStep where
  | connect (origin : Option String)
  | text (config : AgentConfig) (text : String)
  | notify
  | reply (ok : Bool)
  | ping (ok : Bool)
  | ignore
  | close
  | event (ok : Bool)

inductive WorkerStep where
  | check
  | pop
  | broadcast (timestamp : String) (status : JobStatus) (message : String)
  | finish
  | pollNotified
  | pollShutdown
  | park
  | shutdownWake
  | resume

inductive Label where
  | socket (c : ℕ) (step : SocketStep)
  | worker (step : WorkerStep)
  | cancel

def System.setConn (s : System) (c : ℕ) (conn : Connection) : System :=
  { s with conns := Function.update s.conns c conn }

/-- `notify_one`: a parked worker is woken, otherwise one permit is stored. -/
def System.notifyOne (s : System) : System :=
  match s.worker with
  | .parked => { s with worker := .woken }
  | _ => { s with permit := true }

def statusMessageForConnection (entry : TaskLogEntry) (acceptedJobIds : Finset String) :
    Option ServerMessage :=
  match entry.jobId with
  | none => none
  | some jobId =>
    if jobId ∈ acceptedJobIds then
      some (.jobStatus entry.requestId jobId entry.status (some entry.message))
    else none

/-- The jobs by which a frame made the queue grow. -/
def newJobs (q : QueueState) (h : Handled) : List QueuedJob :=
  h.queue.pending.drop q.pending.length

def System.handleText (env : ServerEnv) (s : System) (c : ℕ) (config : AgentConfig)
    (text : String) : System :=
  let h := handleClientText env config (s.conns c).origin text s.queue
  { s with
    queue := h.queue
    acceptances := s.acceptances++(newJobs s.queue h).map
      (fun queued => ⟨c,queued.jobId,s.log.length⟩)
    conns := Function.update s.conns c { s.conns c with phase := .accepted h } }

def System.handleNotify (s : System) (c : ℕ) (h : Handled) : System :=
  (if h.notify then s.notifyOne else s).setConn c
    { s.conns c with phase := .replying h.outcome }

def Connection.handleReply (conn : Connection) (outcome : ClientTextOutcome) (ok : Bool) :
    Connection :=
  let ids := conn.acceptedJobIds ∪ outcome.acceptedJobIds.toFinset
  if ok then
    { conn with acceptedJobIds := ids, phase := .select, sent := conn.sent++[.reply outcome] }
  else { conn with acceptedJobIds := ids, phase := .closed }

def Connection.handlePing (conn : Connection) (ok : Bool) : Connection :=
  if ok then { conn with sent := conn.sent++[.pong] } else { conn with phase := .closed }

def Connection.handleEvent (conn : Connection) (log : List TaskLogEntry) (ok : Bool) :
    Option Connection :=
  match recv statusEventCapacity log conn.cursor with
  | (.pending,_) => none
  | (.lagged _,next) => some { conn with cursor := next, lagged := true }
  | (.entry entry,next) =>
    match statusMessageForConnection entry conn.acceptedJobIds with
    | none => some { conn with cursor := next }
    | some response =>
      if ok then some { conn with cursor := next, sent := conn.sent++[.event response] }
      else some { conn with cursor := next, phase := .closed }

/-- One step of a socket loop. A step that does not fit the phase is not enabled. -/
def socketStep (env : ServerEnv) (s : System) (c : ℕ) : SocketStep → Option System
  | .connect origin =>
    if (s.conns c).phase = .unopened then
      some (s.setConn c { origin := origin, cursor := s.log.length, phase := .select })
    else none
  | .text config text =>
    if (s.conns c).phase = .select then some (s.handleText env c config text) else none
  | .notify =>
    match (s.conns c).phase with
    | .accepted h => some (s.handleNotify c h)
    | _ => none
  | .reply ok =>
    match (s.conns c).phase with
    | .replying outcome => some (s.setConn c ((s.conns c).handleReply outcome ok))
    | _ => none
  | .ping ok =>
    if (s.conns c).phase = .select then some (s.setConn c ((s.conns c).handlePing ok)) else none
  | .ignore => if (s.conns c).phase = .select then some s else none
  | .close =>
    if (s.conns c).phase = .select then
      some (s.setConn c { s.conns c with phase := .closed })
    else none
  | .event ok =>
    if (s.conns c).phase = .select then
      ((s.conns c).handleEvent s.log ok).map (s.setConn c)
    else none

def popStep (s : System) : System :=
  match popNext s.queue with
  | (some queued,q) => { s with queue := q, worker := .processing queued }
  | (none,q) => { s with queue := q, worker := .selecting }

/-- One step of the worker loop. A woken worker that sees the shutdown first
gives its notification back. -/
def workerStep (s : System) : WorkerStep → Option System
  | .check =>
    if s.worker = .top then
      some { s with worker := if s.cancelled then .stopped else .popping }
    else none
  | .pop => if s.worker = .popping then some (popStep s) else none
  | .broadcast timestamp status message =>
    match s.worker with
    | .processing queued =>
      some { s with log := s.log++[logEntry queued timestamp status message] }
    | _ => none
  | .finish =>
    match s.worker with
    | .processing _ => some { s with worker := .top }
    | _ => none
  | .pollNotified =>
    if s.worker = .selecting ∧ s.permit then
      some { s with worker := .top, permit := false }
    else none
  | .pollShutdown =>
    if s.worker = .selecting ∧ s.cancelled then some { s with worker := .stopped } else none
  | .park =>
    if s.worker = .selecting ∧ s.permit = false then some { s with worker := .parked } else none
  | .shutdownWake =>
    if s.cancelled then match s.worker with
      | .parked => some { s with worker := .stopped }
      | .woken => some { s with worker := .stopped, permit := true }
      | _ => none
    else none
  | .resume => if s.worker = .woken then some { s with worker := .top } else none

def step (env : ServerEnv) (s : System) : Label → Option System
  | .socket c l => socketStep env s c l
  | .worker l => workerStep s l
  | .cancel => some { s with cancelled := true }

variable {env : ServerEnv} {s t : System} {c : ℕ}

/-- All a socket loop can do in one step. -/
theorem socketStep_cases {l : SocketStep} (h : socketStep env s c l = some t) :
    (∃ origin, (s.conns c).phase = .unopened ∧
      t = s.setConn c { origin := origin, cursor := s.log.length, phase := .select }) ∨
    (∃ config text, (s.conns c).phase = .select ∧ t = s.handleText env c config text) ∨
    (∃ handled, (s.conns c).phase = .accepted handled ∧ t = s.handleNotify c handled) ∨
    (∃ outcome ok, (s.conns c).phase = .replying outcome ∧
      t = s.setConn c ((s.conns c).handleReply outcome ok)) ∨
    (∃ ok, (s.conns c).phase = .select ∧ t = s.setConn c ((s.conns c).handlePing ok)) ∨
    t = s ∨
    ((s.conns c).phase = .select ∧ t = s.setConn c { s.conns c with phase := .closed }) ∨
    (∃ ok conn, (s.conns c).phase = .select ∧
      (s.conns c).handleEvent s.log ok = some conn ∧ t = s.setConn c conn) := by
  cases l with
  | connect origin =>
    simp only [socketStep, Option.ite_none_right_eq_some, Option.some.injEq] at h
    exact Or.inl ⟨origin,h.1,h.2.symm⟩
  | text config text =>
    simp only [socketStep, Option.ite_none_right_eq_some, Option.some.injEq] at h
    exact Or.inr (Or.inl ⟨config,text,h.1,h.2.symm⟩)
  | notify =>
    cases hp : (s.conns c).phase with
    | accepted handled =>
      simp only [socketStep, hp, Option.some.injEq] at h
      exact Or.inr (Or.inr (Or.inl ⟨handled,rfl,h.symm⟩))
    | _ => simp [socketStep,hp] at h
  | reply ok =>
    cases hp : (s.conns c).phase with
    | replying outcome =>
      simp only [socketStep, hp, Option.some.injEq] at h
      exact Or.inr (Or.inr (Or.inr (Or.inl ⟨outcome,ok,rfl,h.symm⟩)))
    | _ => simp [socketStep,hp] at h
  | ping ok =>
    simp only [socketStep, Option.ite_none_right_eq_some, Option.some.injEq] at h
    exact Or.inr (Or.inr (Or.inr (Or.inr (Or.inl ⟨ok,h.1,h.2.symm⟩))))
  | ignore =>
    simp only [socketStep, Option.ite_none_right_eq_some, Option.some.injEq] at h
    exact Or.inr (Or.inr (Or.inr (Or.inr (Or.inr (Or.inl h.2.symm)))))
  | close =>
    simp only [socketStep, Option.ite_none_right_eq_some, Option.some.injEq] at h
    exact Or.inr (Or.inr (Or.inr (Or.inr (Or.inr (Or.inr (Or.inl ⟨h.1,h.2.symm⟩))))))
  | event ok =>
    simp only [socketStep, Option.ite_none_right_eq_some, Option.map_eq_some_iff] at h
    obtain ⟨hp,conn,hc,ht⟩ := h
    exact Or.inr (Or.inr (Or.inr (Or.inr (Or.inr (Or.inr (Or.inr ⟨ok,conn,hp,hc,ht.symm⟩))))))

/-- Phases in which the worker neither handles a job nor waits for one. -/
def WorkerPhase.Between (w : WorkerPhase) : Prop := w = .top ∨ w = .popping ∨ w = .stopped

/-- All the worker can do in one step. -/
theorem workerStep_cases {l : WorkerStep} (h : workerStep s l = some t) :
    (∃ queued timestamp status message, s.worker = .processing queued ∧
      t = { s with log := s.log++[logEntry queued timestamp status message] }) ∨
    (s.worker = .popping ∧ t = popStep s) ∨
    (s.worker = .selecting ∧ s.permit = false ∧ t = { s with worker := .parked }) ∨
    (∃ w permit, w.Between ∧ t = { s with worker := w, permit := permit }) := by
  cases l with
  | check =>
    simp only [workerStep, Option.ite_none_right_eq_some, Option.some.injEq] at h
    refine Or.inr (Or.inr (Or.inr ⟨_,s.permit,?_,h.2.symm⟩))
    cases s.cancelled <;> simp [WorkerPhase.Between]
  | pop =>
    simp only [workerStep, Option.ite_none_right_eq_some, Option.some.injEq] at h
    exact Or.inr (Or.inl ⟨h.1,h.2.symm⟩)
  | broadcast timestamp status message =>
    simp only [workerStep] at h
    split at h
    · rename_i queued hw
      exact Or.inl ⟨queued,timestamp,status,message,hw,(Option.some.inj h).symm⟩
    · cases h
  | finish =>
    simp only [workerStep] at h
    split at h
    · exact Or.inr (Or.inr (Or.inr ⟨.top,s.permit,Or.inl rfl,(Option.some.inj h).symm⟩))
    · cases h
  | pollNotified =>
    simp only [workerStep, Option.ite_none_right_eq_some, Option.some.injEq] at h
    exact Or.inr (Or.inr (Or.inr ⟨.top,false,Or.inl rfl,h.2.symm⟩))
  | pollShutdown =>
    simp only [workerStep, Option.ite_none_right_eq_some, Option.some.injEq] at h
    exact Or.inr (Or.inr (Or.inr ⟨.stopped,s.permit,Or.inr (Or.inr rfl),h.2.symm⟩))
  | park =>
    simp only [workerStep, Option.ite_none_right_eq_some, Option.some.injEq] at h
    exact Or.inr (Or.inr (Or.inl ⟨h.1.1,h.1.2,h.2.symm⟩))
  | shutdownWake =>
    simp only [workerStep, Option.ite_none_right_eq_some] at h
    obtain ⟨-,h⟩ := h
    split at h
    · exact Or.inr (Or.inr (Or.inr ⟨.stopped,s.permit,Or.inr (Or.inr rfl),
        (Option.some.inj h).symm⟩))
    · exact Or.inr (Or.inr (Or.inr ⟨.stopped,true,Or.inr (Or.inr rfl),
        (Option.some.inj h).symm⟩))
    · cases h
  | resume =>
    simp only [workerStep, Option.ite_none_right_eq_some, Option.some.injEq] at h
    exact Or.inr (Or.inr (Or.inr ⟨.top,s.permit,Or.inl rfl,h.2.symm⟩))

/-- What a frame does to the queue, in terms of the jobs that were appended. -/
structure Growth (q : QueueState) (h : Handled) : Prop where
  pending_eq : h.queue.pending = q.pending++newJobs q h
  seen_eq : h.queue.seenJobIds = q.seenJobIds ∪ ((newJobs q h).map QueuedJob.jobId).toFinset
  ids_eq : h.outcome.acceptedJobIds = (newJobs q h).map QueuedJob.jobId
  ids_nodup : ((newJobs q h).map QueuedJob.jobId).Nodup
  ids_fresh : ∀ queued ∈ newJobs q h, queued.jobId ∉ q.seenJobIds
  queued : h.outcome.acceptedJobIds ≠ [] → Acceptance.isQueued h.outcome.response = true
  notified : h.queue.pending ≠ q.pending → h.notify = true

theorem handleClientText_growth (env : ServerEnv) (config : AgentConfig)
    (origin : Option String) (text : String) (q : QueueState) :
    Growth q (handleClientText env config origin text q) := by
  rcases Acceptance.handleClientText_cases env config origin text q with
    h | ⟨m,r,b,jobs,grant,-,h⟩
  · have hn : newJobs q (handleClientText env config origin text q) = [] := by
      simp [newJobs,h.1]
    constructor <;> simp [hn,h.1,h.2.2.1]
  · have hn : newJobs q (handleClientText env config origin text q) =
        queuedJobs env.parsers r b grant jobs := by
      simp [newJobs,h.queue_eq,QueueState.enqueue]
    obtain ⟨-,hnodup,hfresh,-,-⟩ := h.admissible
    constructor
    · rw [hn,h.queue_eq]
      rfl
    · rw [hn,h.queue_eq]
      rfl
    · rw [hn,h.ids_eq,queuedJobs_ids]
    · rwa [hn]
    · rwa [hn]
    · exact fun _ => h.queued
    · exact fun _ => h.notify_eq

def rawJob : PrintJobInput where
  jobId := "RAW-001"
  format := .raw
  printerName := some "Zebra ZD421"
  dataBase64 := some "XlhB"

def rawFrame : String :=
  "\x7b\"type\":\"print\",\"request_id\":\"REQ-RAW\",\"job_id\":\"RAW-001\"," ++
  "\"format\":\"raw\",\"printer_name\":\"Zebra ZD421\",\"data_base64\":\"XlhB\"\x7d"

/-- Parsers for runs with the one frame above. -/
def rawEnv : ServerEnv where
  parsers :=
    { url := fun _ => none
      base64 := fun text => if text = "XlhB" then some [0x5e,0x58,0x41] else none
      ipNet := fun _ => none }
  fromStr text := if text = rawFrame then .ok (.print "REQ-RAW" rawJob)
    else .error "expected value at line 1 column 1"
  printing := ⟨.ok [],fun _ => .ok [],fun _ => .ok [],fun _ => .ok []⟩

end YinShu.AgentSystem
