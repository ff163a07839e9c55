import YinShu.PrintQueue

/-!
# Histories of the print queue

A history is any finite sequence of calls on a queue that starts empty. The
transcript pairs each call with the reply it got; what was accepted and what
was popped is read off the transcript alone. The queue state is then a
function of the transcript, through the ledger that it represents.
-/

set_option autoImplicit false

namespace YinShu.QueueHistory
open YinShu.Protocol YinShu.PrintQueue YinShu.FifoLedger

inductive Op where
  | acceptJob (requestId : String) (job : PrintJobInput)
  | acceptBatch (requestId batchId : String) (jobs : List PrintJobInput)
  | acceptJobWithHtmlLocalOrigin (requestId : String) (job : PrintJobInput)
      (htmlLocalOrigin : Option String)
  | acceptBatchWithHtmlLocalOrigin (requestId batchId : String) (jobs : List PrintJobInput)
      (htmlLocalOrigin : Option String)
  | popNext
  deriving DecidableEq, Repr

inductive Reply where
  | accept (result : Except QueueError Unit)
  | pop (job : Option QueuedJob)

variable (p : Parsers)

def accepted (outcome : Outcome) : Reply × QueueState := (.accept outcome.1,outcome.2)

def perform : Op → QueueState → Reply × QueueState
  | .acceptJob r job, q => accepted (acceptJob p r job q)
  | .acceptBatch r b jobs, q => accepted (acceptBatch p r b jobs q)
  | .acceptJobWithHtmlLocalOrigin r job o, q =>
    accepted (acceptJobWithHtmlLocalOrigin p r job o q)
  | .acceptBatchWithHtmlLocalOrigin r b jobs o, q =>
    accepted (acceptBatchWithHtmlLocalOrigin p r b jobs o q)
  | .popNext, q => (.pop (popNext q).1,(popNext q).2)

/-- The jobs of a call, as they are queued when the call is accepted. -/
def Op.jobs : Op → List QueuedJob
  | .acceptJob r job => [⟨r,none,job,none⟩]
  | .acceptBatch r b jobs => queuedJobs p r (some b) none jobs
  | .acceptJobWithHtmlLocalOrigin r job o => queuedJobs p r none o [job]
  | .acceptBatchWithHtmlLocalOrigin r b jobs o => queuedJobs p r (some b) o jobs
  | .popNext => []

def Op.batchIds : Op → List String
  | .acceptBatch _ b _ => [b]
  | .acceptBatchWithHtmlLocalOrigin _ b _ _ => [b]
  | _ => []

def transcript : List Op → QueueState → List (Op × Reply)
  | [], _ => []
  | op::ops, q => (op,(perform p op q).1)::transcript ops (perform p op q).2

def finalState : List Op → QueueState → QueueState
  | [], q => q
  | op::ops, q => finalState ops (perform p op q).2

def Reply.isOk : Reply → Bool
  | .accept (.ok _) => true
  | _ => false

def acceptedJobs (t : List (Op × Reply)) : List QueuedJob :=
  t.flatMap (fun e => if e.2.isOk then e.1.jobs p else [])

def acceptedBatchIds (t : List (Op × Reply)) : List String :=
  t.flatMap (fun e => if e.2.isOk then e.1.batchIds else [])

def Reply.popped : Reply → List QueuedJob
  | .pop (some job) => [job]
  | _ => []

def poppedJobs (t : List (Op × Reply)) : List QueuedJob := t.flatMap (fun e => e.2.popped)

/-- The queue state that belongs to a ledger and a list of batch identifiers. -/
structure Represents (q : QueueState) (l : Ledger QueuedJob.jobId) (batchIds : List String) :
    Prop where
  waiting : q.pending = l.pending
  jobIds : q.seenJobIds = (l.accepted.map QueuedJob.jobId).toFinset
  batches : q.seenBatchIds = batchIds.toFinset
  batches_nodup : batchIds.Nodup

/-- All a call can do. A rejected call and a pop of an empty queue change nothing. -/
theorem perform_cases (op : Op) (q : QueueState) :
    (∃ error, perform p op q = (.accept (.error error),q)) ∨
    (Admissible p q (op.jobs p) op.batchIds ∧
      perform p op q = (.accept (.ok ()),q.enqueue (op.jobs p) op.batchIds)) ∨
    (q.pending = [] ∧ perform p op q = (.pop none,q)) ∨
    (∃ queued rest, q.pending = queued::rest ∧
      perform p op q = (.pop (some queued),{ q with pending := rest })) := by
  have accepting : ∀ jobs batchIds outcome, AllOrNothing p q jobs batchIds outcome →
      (∃ error, accepted outcome = (.accept (.error error),q)) ∨
        (Admissible p q jobs batchIds ∧
          accepted outcome = (.accept (.ok ()),q.enqueue jobs batchIds)) := by
    rintro jobs batchIds outcome (⟨error,rfl⟩ | ⟨ha,rfl⟩)
    · exact Or.inl ⟨error,rfl⟩
    · exact Or.inr ⟨ha,rfl⟩
  cases op with
  | acceptJob r job =>
    exact (accepting _ _ _ (acceptQueuedJob_spec p _ q)).imp_right Or.inl
  | acceptBatch r b jobs =>
    exact (accepting _ _ _ (acceptBatchWithHtmlOrigin_spec p r b jobs none q)).imp_right Or.inl
  | acceptJobWithHtmlLocalOrigin r job o =>
    exact (accepting _ _ _ (acceptQueuedJob_spec p _ q)).imp_right Or.inl
  | acceptBatchWithHtmlLocalOrigin r b jobs o =>
    exact (accepting _ _ _ (acceptBatchWithHtmlOrigin_spec p r b jobs o q)).imp_right Or.inl
  | popNext =>
    refine Or.inr (Or.inr ?_)
    rcases popNext_spec q with ⟨he,hp⟩ | ⟨queued,rest,hc,hp⟩
    · exact Or.inl ⟨he,by simp [perform,hp]⟩
    · exact Or.inr ⟨queued,rest,hc,by simp [perform,hp]⟩

theorem empty_represents : Represents {} (Ledger.empty QueuedJob.jobId) [] where
  waiting := rfl
  jobIds := rfl
  batches := rfl
  batches_nodup := List.nodup_nil

theorem enqueue_represents (q : QueueState) (l : Ledger QueuedJob.jobId) (batchIds : List String)
    (hq : Represents q l batchIds) (jobs : List QueuedJob) (newBatchIds : List String)
    (ha : Admissible p q jobs newBatchIds) :
    ∃ hf : l.Fresh jobs,
      Represents (q.enqueue jobs newBatchIds) (l.append jobs hf) (batchIds++newBatchIds) := by
  obtain ⟨-,hn,hs,hbn,hbs⟩ := ha
  have hf : l.Fresh jobs := by
    refine ⟨hn,fun queued hm hk => hs queued hm ?_⟩
    rw [hq.jobIds]
    exact List.mem_toFinset.mpr hk
  refine ⟨hf,⟨?_,?_,?_,?_⟩⟩
  · rw [append_pending,← hq.waiting]
    rfl
  · simp [QueueState.enqueue, Ledger.append, hq.jobIds, List.toFinset_append]
  · simp [QueueState.enqueue, hq.batches, List.toFinset_append]
  · rw [List.nodup_append]
    refine ⟨hq.batches_nodup,hbn,?_⟩
    rintro b hb _ hb' rfl
    exact hbs b hb' (by rw [hq.batches]; exact List.mem_toFinset.mpr hb)

theorem pop_represents (q : QueueState) (l : Ledger QueuedJob.jobId) (batchIds : List String)
    (hq : Represents q l batchIds) (queued : QueuedJob) (rest : List QueuedJob)
    (hp : q.pending = queued::rest) :
    ∃ l' : Ledger QueuedJob.jobId, l'.accepted = l.accepted ∧ l'.popped = l.popped++[queued] ∧
      Represents { q with pending := rest } l' batchIds := by
  have hl : l.pending = queued::rest := by rw [← hq.waiting,hp]
  obtain ⟨hpop,hpend⟩ := pop_spec l queued rest hl
  exact ⟨l.pop (pending_cons_lt l queued rest hl),rfl,hpop,
    ⟨hpend.symm,hq.jobIds,hq.batches,hq.batches_nodup⟩⟩

/-- One call moves the ledger by what the call and its reply say. -/
theorem perform_represents (op : Op) (q : QueueState) (l : Ledger QueuedJob.jobId)
    (batchIds : List String) (hq : Represents q l batchIds) :
    ∃ l' : Ledger QueuedJob.jobId,
      l'.accepted = l.accepted++acceptedJobs p [(op,(perform p op q).1)] ∧
      l'.popped = l.popped++poppedJobs [(op,(perform p op q).1)] ∧
      Represents (perform p op q).2 l'
        (batchIds++acceptedBatchIds [(op,(perform p op q).1)]) := by
  rcases perform_cases p op q with ⟨error,h⟩ | ⟨ha,h⟩ | ⟨he,h⟩ | ⟨queued,rest,hc,h⟩
  · rw [h]
    exact ⟨l,by simp [acceptedJobs,Reply.isOk],by simp [poppedJobs,Reply.popped],
      by simpa [acceptedBatchIds,Reply.isOk] using hq⟩
  · rw [h]
    obtain ⟨hf,hr⟩ := enqueue_represents p q l batchIds hq _ _ ha
    exact ⟨l.append _ hf,by simp [acceptedJobs,Reply.isOk,Ledger.append],
      by simp [poppedJobs,Reply.popped,append_popped],
      by simpa [acceptedBatchIds,Reply.isOk] using hr⟩
  · rw [h]
    exact ⟨l,by simp [acceptedJobs,Reply.isOk],by simp [poppedJobs,Reply.popped],
      by simpa [acceptedBatchIds,Reply.isOk] using hq⟩
  · rw [h]
    obtain ⟨l',hacc,hpop,hr⟩ := pop_represents q l batchIds hq queued rest hc
    exact ⟨l',by simp [acceptedJobs,Reply.isOk,hacc],by simp [poppedJobs,Reply.popped,hpop],
      by simpa [acceptedBatchIds,Reply.isOk] using hr⟩

theorem history_represents (ops : List Op) (q : QueueState) (l : Ledger QueuedJob.jobId)
    (batchIds : List String) (hq : Represents q l batchIds) :
    ∃ l' : Ledger QueuedJob.jobId,
      l'.accepted = l.accepted++acceptedJobs p (transcript p ops q) ∧
      l'.popped = l.popped++poppedJobs (transcript p ops q) ∧
      Represents (finalState p ops q) l'
        (batchIds++acceptedBatchIds (transcript p ops q)) := by
  induction ops generalizing q l batchIds with
  | nil => exact ⟨l,by simp [transcript,acceptedJobs],by simp [transcript,poppedJobs],
      by simpa [transcript,acceptedBatchIds,finalState] using hq⟩
  | cons op ops ih =>
    obtain ⟨l₁,hacc,hpop,hr⟩ := perform_represents p op q l batchIds hq
    obtain ⟨l₂,hacc₂,hpop₂,hr₂⟩ := ih _ l₁ _ hr
    refine ⟨l₂,?_,?_,?_⟩
    · rw [hacc₂,hacc]
      simp [transcript,acceptedJobs]
    · rw [hpop₂,hpop]
      simp [transcript,poppedJobs]
    · simpa [transcript,acceptedBatchIds,finalState] using hr₂

theorem rejected_unchanged (op : Op) (q q' : QueueState) (error : QueueError)
    (h : perform p op q = (.accept (.error error),q')) : q' = q := by
  rcases perform_cases p op q with ⟨e,he⟩ | ⟨-,he⟩ | ⟨-,he⟩ | ⟨queued,rest,-,he⟩ <;>
    rw [he] at h <;> cases h
  rfl

/-- Strict first-in first-out order over whole histories, with nothing lost and
nothing duplicated, and no trace of a rejected call. -/
theorem queue_history (ops : List Op) :
    poppedJobs (transcript p ops {}) ++ pendingJobs (finalState p ops {}) =
      acceptedJobs p (transcript p ops {}) ∧
    ((acceptedJobs p (transcript p ops {})).map QueuedJob.jobId).Nodup ∧
    (finalState p ops {}).seenJobIds =
      ((acceptedJobs p (transcript p ops {})).map QueuedJob.jobId).toFinset ∧
    (finalState p ops {}).seenBatchIds = (acceptedBatchIds (transcript p ops {})).toFinset ∧
    (acceptedBatchIds (transcript p ops {})).Nodup ∧
    ∀ op error q', perform p op (finalState p ops {}) = (.accept (.error error),q') →
      q' = finalState p ops {} := by
  obtain ⟨l,hacc,hpop,hr⟩ := history_represents p ops {} (Ledger.empty _) [] empty_represents
  simp only [Ledger.empty, List.nil_append, Ledger.popped, List.take_nil] at hacc hpop hr
  refine ⟨?_,?_,?_,hr.batches,hr.batches_nodup,
    fun op error q' h => rejected_unchanged p op _ q' error h⟩
  · rw [← hacc,← hpop,pendingJobs,hr.waiting]
    exact popped_append_pending l
  · rw [← hacc]
    exact l.nodup
  · rw [← hacc]
    exact hr.jobIds

end YinShu.QueueHistory
