import Mathlib.Data.Finset.Lattice.Lemmas
import YinShu.FifoLedger
import YinShu.Protocol

/-!
# The in-memory print queue

Every accepting call returns its result together with the state it leaves
behind, also when it fails: that a rejected call changes nothing is a theorem
about the order of checks and mutations, not a convention of the model. The
queue refines a first-in first-out ledger keyed by job identifiers.
-/

set_option autoImplicit false

namespace YinShu.PrintQueue
open YinShu.Protocol YinShu.WebUrl YinShu.FifoLedger

structure QueuedJob where
  requestId : String
  batchId : Option String
  job : PrintJobInput
  htmlLocalOrigin : Option String
  deriving DecidableEq, Repr

def QueuedJob.jobId (queued : QueuedJob) : String := queued.job.jobId

/-- The record of a status of the job, as the worker logs and broadcasts it. -/
def logEntry (queued : QueuedJob) (timestamp : String) (status : JobStatus)
    (message : String) : TaskLogEntry where
  timestamp := timestamp
  requestId := some queued.requestId
  batchId := queued.batchId
  jobId := some queued.job.jobId
  origin := none
  status := status
  message := message

inductive QueueError where
  | duplicateJobId
  | duplicateBatchId
  | invalidMessage
  deriving DecidableEq, Repr

def QueueError.message : QueueError → String
  | .duplicateJobId => "duplicate job id"
  | .duplicateBatchId => "duplicate batch id"
  | .invalidMessage => "invalid message"

structure QueueState where
  pending : List QueuedJob := []
  seenJobIds : Finset String := ∅
  seenBatchIds : Finset String := ∅
  deriving DecidableEq

abbrev Outcome := Except QueueError Unit × QueueState

variable (p : Parsers)

def validateHtmlSource (job : PrintJobInput) : Except QueueError Unit :=
  if job.format ≠ .html then .ok ()
  else match job.fileUrl.filter (fun value => !value.isEmpty) with
    | none => .error .invalidMessage
    | some fileUrl =>
      match validateHtmlFileUrl p fileUrl with
      | .ok _ => .ok ()
      | .error _ => .error .invalidMessage

/-- The stored grant is compared with the serialized origin of the job's own
URL; the format of the job is not consulted. -/
def htmlLocalOriginForJob (job : PrintJobInput) (htmlLocalOrigin : Option String) :
    Option String :=
  match job.fileUrl with
  | none => none
  | some fileUrl =>
    match validateHtmlFileUrl p fileUrl with
    | .error _ => none
    | .ok url => htmlLocalOrigin.filter (fun allowed => allowed == url.origin.asciiSerialization)

def acceptQueuedJob (queuedJob : QueuedJob) (q : QueueState) : Outcome :=
  match validateHtmlSource p queuedJob.job with
  | .error error => (.error error,q)
  | .ok _ =>
    if queuedJob.job.jobId ∈ q.seenJobIds then (.error .duplicateJobId,q)
    else (.ok (),{ q with
      seenJobIds := insert queuedJob.job.jobId q.seenJobIds
      pending := q.pending++[queuedJob] })

def acceptJob (requestId : String) (job : PrintJobInput) (q : QueueState) : Outcome :=
  acceptQueuedJob p ⟨requestId,none,job,none⟩ q

def acceptJobWithHtmlLocalOrigin (requestId : String) (job : PrintJobInput)
    (htmlLocalOrigin : Option String) (q : QueueState) : Outcome :=
  acceptQueuedJob p ⟨requestId,none,job,htmlLocalOriginForJob p job htmlLocalOrigin⟩ q

def checkBatchIds (seen : Finset String) : List PrintJobInput → Finset String →
    Except QueueError Unit
  | [], _ => .ok ()
  | job::jobs, batchJobIds =>
    if job.jobId ∈ seen ∨ job.jobId ∈ batchJobIds then .error .duplicateJobId
    else checkBatchIds seen jobs (insert job.jobId batchJobIds)

def pushBatch (requestId batchId : String) (htmlLocalOrigin : Option String) :
    List PrintJobInput → QueueState → QueueState
  | [], q => q
  | job::jobs, q => pushBatch requestId batchId htmlLocalOrigin jobs { q with
      seenJobIds := insert job.jobId q.seenJobIds
      pending := q.pending++[⟨requestId,some batchId,job,
        htmlLocalOriginForJob p job htmlLocalOrigin⟩] }

def acceptBatchWithHtmlOrigin (requestId batchId : String) (jobs : List PrintJobInput)
    (htmlLocalOrigin : Option String) (q : QueueState) : Outcome :=
  match checkAll (validateHtmlSource p) jobs with
  | .error error => (.error error,q)
  | .ok _ =>
    if batchId ∈ q.seenBatchIds then (.error .duplicateBatchId,q)
    else match checkBatchIds q.seenJobIds jobs ∅ with
      | .error error => (.error error,q)
      | .ok _ => (.ok (),pushBatch p requestId batchId htmlLocalOrigin jobs
          { q with seenBatchIds := insert batchId q.seenBatchIds })

def acceptBatch (requestId batchId : String) (jobs : List PrintJobInput) (q : QueueState) :
    Outcome :=
  acceptBatchWithHtmlOrigin p requestId batchId jobs none q

def acceptBatchWithHtmlLocalOrigin (requestId batchId : String) (jobs : List PrintJobInput)
    (htmlLocalOrigin : Option String) (q : QueueState) : Outcome :=
  acceptBatchWithHtmlOrigin p requestId batchId jobs htmlLocalOrigin q

def popNext (q : QueueState) : Option QueuedJob × QueueState :=
  match q.pending with
  | [] => (none,q)
  | queued::rest => (some queued,{ q with pending := rest })

def pendingJobs (q : QueueState) : List QueuedJob := q.pending

/-- The effect of a successful acceptance, whichever entry point was used. -/
def QueueState.enqueue (q : QueueState) (jobs : List QueuedJob) (batchIds : List String) :
    QueueState where
  pending := q.pending++jobs
  seenJobIds := q.seenJobIds ∪ (jobs.map QueuedJob.jobId).toFinset
  seenBatchIds := q.seenBatchIds ∪ batchIds.toFinset

/-- What the checks of an accepting call establish about the jobs it queues. -/
def Admissible (q : QueueState) (jobs : List QueuedJob) (batchIds : List String) : Prop :=
  (∀ queued ∈ jobs, validateHtmlSource p queued.job = .ok ()) ∧
    (jobs.map QueuedJob.jobId).Nodup ∧ (∀ queued ∈ jobs, queued.jobId ∉ q.seenJobIds) ∧
    batchIds.Nodup ∧ ∀ batchId ∈ batchIds, batchId ∉ q.seenBatchIds

/-- Either nothing changes, or exactly the given jobs are appended. -/
def AllOrNothing (q : QueueState) (jobs : List QueuedJob) (batchIds : List String)
    (outcome : Outcome) : Prop :=
  (∃ error, outcome = (.error error,q)) ∨
    (Admissible p q jobs batchIds ∧ outcome = (.ok (),q.enqueue jobs batchIds))

def queuedJobs (requestId : String) (batchId htmlLocalOrigin : Option String)
    (jobs : List PrintJobInput) : List QueuedJob :=
  jobs.map (fun job => ⟨requestId,batchId,job,htmlLocalOriginForJob p job htmlLocalOrigin⟩)

theorem queuedJobs_ids (requestId : String) (batchId htmlLocalOrigin : Option String)
    (jobs : List PrintJobInput) :
    (queuedJobs p requestId batchId htmlLocalOrigin jobs).map QueuedJob.jobId =
      jobs.map PrintJobInput.jobId := by
  simp [queuedJobs, QueuedJob.jobId, Function.comp_def]

theorem acceptQueuedJob_spec (queuedJob : QueuedJob) (q : QueueState) :
    AllOrNothing p q [queuedJob] [] (acceptQueuedJob p queuedJob q) := by
  unfold acceptQueuedJob
  cases hv : validateHtmlSource p queuedJob.job with
  | error error => exact Or.inl ⟨error,rfl⟩
  | ok u =>
    by_cases hd : queuedJob.job.jobId ∈ q.seenJobIds
    · exact Or.inl ⟨.duplicateJobId,by simp [hd]⟩
    · refine Or.inr ⟨⟨by simpa using hv,by simp,by simpa [QueuedJob.jobId] using hd,
        by simp,by simp⟩,?_⟩
      simp [hd, QueueState.enqueue, QueuedJob.jobId]

theorem checkBatchIds_ok (seen : Finset String) (jobs : List PrintJobInput)
    (batchJobIds : Finset String) :
    checkBatchIds seen jobs batchJobIds = .ok () ↔
      (jobs.map PrintJobInput.jobId).Nodup ∧
        ∀ job ∈ jobs, job.jobId ∉ seen ∧ job.jobId ∉ batchJobIds := by
  induction jobs generalizing batchJobIds with
  | nil => simp [checkBatchIds]
  | cons job jobs ih =>
    by_cases hd : job.jobId ∈ seen ∨ job.jobId ∈ batchJobIds
    · simp only [checkBatchIds, if_pos hd]
      constructor
      · simp
      · rintro ⟨-,h⟩
        have hj := h job (by simp)
        exact absurd hd (by simp [hj.1,hj.2])
    · simp only [checkBatchIds, if_neg hd, ih, List.map_cons, List.nodup_cons,
        List.forall_mem_cons, Finset.mem_insert]
      constructor
      · rintro ⟨hn,h⟩
        refine ⟨⟨?_,hn⟩,by simpa using hd,fun j hj => ⟨(h j hj).1,fun hb => (h j hj).2 (.inr hb)⟩⟩
        intro hm
        obtain ⟨j,hj,hid⟩ := List.mem_map.mp hm
        exact (h j hj).2 (.inl hid)
      · rintro ⟨⟨hm,hn⟩,-,h⟩
        refine ⟨hn,fun j hj => ⟨(h j hj).1,?_⟩⟩
        rintro (hid | hb)
        · exact hm (List.mem_map.mpr ⟨j,hj,hid⟩)
        · exact (h j hj).2 hb

theorem pushBatch_eq (requestId batchId : String) (htmlLocalOrigin : Option String)
    (jobs : List PrintJobInput) (q : QueueState) :
    pushBatch p requestId batchId htmlLocalOrigin jobs q =
      q.enqueue (queuedJobs p requestId (some batchId) htmlLocalOrigin jobs) [] := by
  induction jobs generalizing q with
  | nil => simp [pushBatch, queuedJobs, QueueState.enqueue]
  | cons job jobs ih =>
    rw [pushBatch,ih]
    simp only [QueueState.enqueue, queuedJobs_ids, QueueState.mk.injEq]
    refine ⟨by simp [queuedJobs],?_,trivial⟩
    ext id
    simp

theorem acceptBatchWithHtmlOrigin_spec (requestId batchId : String) (jobs : List PrintJobInput)
    (htmlLocalOrigin : Option String) (q : QueueState) :
    AllOrNothing p q (queuedJobs p requestId (some batchId) htmlLocalOrigin jobs) [batchId]
      (acceptBatchWithHtmlOrigin p requestId batchId jobs htmlLocalOrigin q) := by
  unfold acceptBatchWithHtmlOrigin
  cases hv : checkAll (validateHtmlSource p) jobs with
  | error error => exact Or.inl ⟨error,rfl⟩
  | ok u =>
    by_cases hb : batchId ∈ q.seenBatchIds
    · exact Or.inl ⟨.duplicateBatchId,by simp [hb]⟩
    · cases hc : checkBatchIds q.seenJobIds jobs ∅ with
      | error error => exact Or.inl ⟨error,by simp [hb]⟩
      | ok u =>
        have hval := (checkAll_ok _ _).mp hv
        obtain ⟨hn,hs⟩ := (checkBatchIds_ok _ _ _).mp hc
        refine Or.inr ⟨⟨?_,by rwa [queuedJobs_ids],?_,by simp,by simpa using hb⟩,?_⟩
        · intro queued hq
          obtain ⟨job,hj,rfl⟩ := List.mem_map.mp hq
          exact hval job hj
        · intro queued hq
          obtain ⟨job,hj,rfl⟩ := List.mem_map.mp hq
          exact (hs job hj).1
        · simp only [if_neg hb, pushBatch_eq, QueueState.enqueue, Prod.mk.injEq,
            QueueState.mk.injEq, true_and, List.toFinset_cons, List.toFinset_nil,
            Finset.union_empty, insert_empty_eq]
          rw [Finset.insert_eq,Finset.union_comm]

theorem popNext_spec (q : QueueState) :
    (q.pending = [] ∧ popNext q = (none,q)) ∨
      ∃ queued rest, q.pending = queued::rest ∧
        popNext q = (some queued,{ q with pending := rest }) := by
  unfold popNext
  cases h : q.pending with
  | nil => exact Or.inl ⟨rfl,rfl⟩
  | cons queued rest => exact Or.inr ⟨queued,rest,rfl,rfl⟩

end YinShu.PrintQueue
