import YinShu.ClientText

/-!
# Acceptance of client messages

One frame either changes nothing and binds no identifier, or appends exactly
the jobs of its message. Both outcomes are described once, for single jobs and
batches together; the statements on replies, on limits and on the loopback
grant are read off that description.
-/

set_option autoImplicit false

namespace YinShu.Acceptance
open YinShu.WebUrl YinShu.Protocol YinShu.PrintQueue YinShu.Settings YinShu.ClientText

def isQueued : ServerMessage → Bool
  | .jobStatus _ _ .queued _ => true
  | _ => false

/-- Request identifier, batch identifier and jobs of a printing message. -/
def request : ClientMessage → Option (String × Option String × List PrintJobInput)
  | .print requestId job => some (requestId,none,[job])
  | .printBatch requestId batchId jobs => some (requestId,some batchId,jobs)
  | _ => none

/-- The queue's own call for a printing message, with the given grant. -/
def acceptMessage (p : Parsers) (grant : Option String) (q : QueueState) :
    ClientMessage → Option Outcome
  | .print requestId job => some (acceptJobWithHtmlLocalOrigin p requestId job grant q)
  | .printBatch requestId batchId jobs =>
    some (acceptBatchWithHtmlLocalOrigin p requestId batchId jobs grant q)
  | _ => none

def Rejected (q : QueueState) (h : Handled) : Prop :=
  h.queue = q ∧ h.notify = false ∧ h.outcome.acceptedJobIds = [] ∧
    isQueued h.outcome.response = false

variable (env : ServerEnv) (config : AgentConfig) (origin : Option String)

structure Accepted (q : QueueState) (message : ClientMessage) (h : Handled)
    (requestId : String) (batchId : Option String) (jobs : List PrintJobInput)
    (grant : Option String) : Prop where
  request_eq : request message = some (requestId,batchId,jobs)
  valid : ∀ job ∈ jobs,
    validateForAcceptance env.parsers job config.limits.maxFileSizeMb = .ok ()
  size : batchId.isSome → jobs.length ≤ config.limits.maxBatchJobs
  grant_eq : htmlLocalOrigin env.parsers jobs origin = .ok grant
  admissible : Admissible env.parsers q (queuedJobs env.parsers requestId batchId grant jobs)
    batchId.toList
  accept_eq : acceptMessage env.parsers grant q message = some (.ok (),h.queue)
  queue_eq : h.queue = q.enqueue (queuedJobs env.parsers requestId batchId grant jobs)
    batchId.toList
  notify_eq : h.notify = true
  ids_eq : h.outcome.acceptedJobIds = jobs.map PrintJobInput.jobId
  queued : isQueued h.outcome.response = true

theorem replyOnly_rejected (q : QueueState) (response : ServerMessage)
    (h : isQueued response = false) : Rejected q (replyOnly q response) :=
  ⟨rfl,rfl,rfl,h⟩

theorem handlePrint_cases (requestId : String) (job : PrintJobInput) (q : QueueState) :
    Rejected q (handlePrint env config origin requestId job q) ∨
      ∃ grant, Accepted env config origin q (.print requestId job)
        (handlePrint env config origin requestId job q) requestId none [job] grant := by
  unfold handlePrint
  cases hv : validateForAcceptance env.parsers job config.limits.maxFileSizeMb with
  | error error => exact Or.inl (replyOnly_rejected _ _ rfl)
  | ok u =>
    cases ho : htmlLocalOrigin env.parsers [job] origin with
    | error message => exact Or.inl (replyOnly_rejected _ _ rfl)
    | ok grant =>
      rcases acceptQueuedJob_spec env.parsers
        ⟨requestId,none,job,htmlLocalOriginForJob env.parsers job grant⟩ q with
        ⟨error,he⟩ | ⟨ha,he⟩
      · left
        simp only [acceptJobWithHtmlLocalOrigin,he]
        exact replyOnly_rejected _ _ rfl
      · right
        refine ⟨grant,?_⟩
        simp only [acceptJobWithHtmlLocalOrigin,he]
        exact
          { request_eq := rfl
            valid := by simpa using hv
            size := by simp
            grant_eq := ho
            admissible := ha
            accept_eq := by simp only [acceptMessage,acceptJobWithHtmlLocalOrigin,he]
            queue_eq := rfl
            notify_eq := rfl
            ids_eq := rfl
            queued := rfl }

theorem handlePrintBatch_cases (requestId batchId : String) (jobs : List PrintJobInput)
    (q : QueueState) :
    Rejected q (handlePrintBatch env config origin requestId batchId jobs q) ∨
      ∃ grant, Accepted env config origin q (.printBatch requestId batchId jobs)
        (handlePrintBatch env config origin requestId batchId jobs q)
        requestId (some batchId) jobs grant := by
  unfold handlePrintBatch
  by_cases hsize : config.limits.maxBatchJobs < jobs.length
  · rw [if_pos hsize]
    exact Or.inl (replyOnly_rejected _ _ rfl)
  rw [if_neg hsize]
  cases hv : checkAll
      (fun job => validateForAcceptance env.parsers job config.limits.maxFileSizeMb) jobs with
  | error error => exact Or.inl (replyOnly_rejected _ _ rfl)
  | ok u =>
    cases ho : htmlLocalOrigin env.parsers jobs origin with
    | error message => exact Or.inl (replyOnly_rejected _ _ rfl)
    | ok grant =>
      rcases acceptBatchWithHtmlOrigin_spec env.parsers requestId batchId jobs grant q with
        ⟨error,he⟩ | ⟨ha,he⟩
      · left
        simp only [acceptBatchWithHtmlLocalOrigin,he]
        exact replyOnly_rejected _ _ rfl
      · right
        refine ⟨grant,?_⟩
        simp only [acceptBatchWithHtmlLocalOrigin,he]
        exact
          { request_eq := rfl
            valid := (checkAll_ok _ _).mp hv
            size := fun _ => Nat.le_of_not_lt hsize
            grant_eq := ho
            admissible := ha
            accept_eq := by simp only [acceptMessage,acceptBatchWithHtmlLocalOrigin,he]
            queue_eq := rfl
            notify_eq := rfl
            ids_eq := rfl
            queued := rfl }

theorem printersList_not_queued (requestId : String) :
    isQueued (handleGetPrintersList env config requestId) = false := by
  unfold handleGetPrintersList
  split <;> rfl

theorem printerInfo_not_queued (requestId printerName : String) :
    isQueued (handleGetPrinterInfo env requestId printerName) = false := by
  unfold handleGetPrinterInfo
  repeat' split
  all_goals rfl

/-- All one frame can do. -/
theorem handleClientText_cases (text : String) (q : QueueState) :
    Rejected q (handleClientText env config origin text q) ∨
      ∃ message requestId batchId jobs grant, env.fromStr text = .ok message ∧
        Accepted env config origin q message (handleClientText env config origin text q)
          requestId batchId jobs grant := by
  unfold handleClientText
  cases ht : env.fromStr text with
  | error error => exact Or.inl (replyOnly_rejected _ _ rfl)
  | ok message =>
    cases message with
    | ping time => exact Or.inl (replyOnly_rejected _ _ rfl)
    | getPrintersList requestId =>
      exact Or.inl (replyOnly_rejected _ _ (printersList_not_queued env config requestId))
    | getPrinterInfo requestId printerName =>
      exact Or.inl (replyOnly_rejected _ _ (printerInfo_not_queued env requestId printerName))
    | getPrintQueue requestId => exact Or.inl (replyOnly_rejected _ _ rfl)
    | print requestId job =>
      rcases handlePrint_cases env config origin requestId job q with h | ⟨grant,h⟩
      · exact Or.inl h
      · exact Or.inr ⟨_,_,_,_,grant,rfl,h⟩
    | printBatch requestId batchId jobs =>
      rcases handlePrintBatch_cases env config origin requestId batchId jobs q with
        h | ⟨grant,h⟩
      · exact Or.inl h
      · exact Or.inr ⟨_,_,_,_,grant,rfl,h⟩

theorem enqueue_ne (p : Parsers) (q : QueueState) (jobs : List QueuedJob)
    (batchIds : List String) (h : Admissible p q jobs batchIds)
    (hne : jobs ≠ [] ∨ batchIds ≠ []) : q.enqueue jobs batchIds ≠ q := by
  obtain ⟨-,-,hs,-,hb⟩ := h
  intro he
  rcases hne with hne | hne
  · obtain ⟨queued,hm⟩ := List.exists_mem_of_ne_nil jobs hne
    apply hs queued hm
    rw [← he]
    simp only [QueueState.enqueue, Finset.mem_union, List.mem_toFinset]
    exact Or.inr (List.mem_map_of_mem hm)
  · obtain ⟨b,hm⟩ := List.exists_mem_of_ne_nil batchIds hne
    apply hb b hm
    rw [← he]
    simp [QueueState.enqueue, hm]

theorem acceptMessage_changes (p : Parsers) (grant : Option String) (q q' : QueueState)
    (message : ClientMessage) (h : acceptMessage p grant q message = some (.ok (),q')) :
    q' ≠ q := by
  cases message with
  | print requestId job =>
    rcases acceptQueuedJob_spec p
      ⟨requestId,none,job,htmlLocalOriginForJob p job grant⟩ q with ⟨error,he⟩ | ⟨ha,he⟩
    · simp [acceptMessage,acceptJobWithHtmlLocalOrigin,he] at h
    · simp only [acceptMessage,acceptJobWithHtmlLocalOrigin,he,Option.some.injEq,
        Prod.mk.injEq,true_and] at h
      rw [← h]
      exact enqueue_ne p q _ _ ha (Or.inl (by simp))
  | printBatch requestId batchId jobs =>
    rcases acceptBatchWithHtmlOrigin_spec p requestId batchId jobs grant q with
      ⟨error,he⟩ | ⟨ha,he⟩
    · simp [acceptMessage,acceptBatchWithHtmlLocalOrigin,he] at h
    · simp only [acceptMessage,acceptBatchWithHtmlLocalOrigin,he,Option.some.injEq,
        Prod.mk.injEq,true_and] at h
      rw [← h]
      exact enqueue_ne p q _ _ ha (Or.inr (by simp))
  | ping time => cases h
  | getPrintersList requestId => cases h
  | getPrinterInfo requestId printerName => cases h
  | getPrintQueue requestId => cases h

/-- The reply is `queued` exactly when the queue took the message, and then the
queue grew by the message's own jobs and by nothing else. -/
theorem handle_client_text_all_or_nothing (text : String) (q : QueueState) :
    (∀ message, env.fromStr text = .ok message → (request message).isSome →
      (isQueued (handleClientText env config origin text q).outcome.response = true ↔
        ∃ grant, acceptMessage env.parsers grant q message =
          some (.ok (),(handleClientText env config origin text q).queue))) ∧
    (isQueued (handleClientText env config origin text q).outcome.response = true →
      ∃ message requestId batchId jobs queued, env.fromStr text = .ok message ∧
        request message = some (requestId,batchId,jobs) ∧
        (handleClientText env config origin text q).queue.pending = q.pending++queued ∧
        queued.map QueuedJob.job = jobs ∧
        (∀ j ∈ queued, j.requestId = requestId ∧ j.batchId = batchId) ∧
        (handleClientText env config origin text q).outcome.acceptedJobIds =
          jobs.map PrintJobInput.jobId ∧
        (∀ job ∈ jobs,
          validateForAcceptance env.parsers job config.limits.maxFileSizeMb = .ok ()) ∧
        (batchId.isSome → jobs.length ≤ config.limits.maxBatchJobs)) ∧
    (isQueued (handleClientText env config origin text q).outcome.response = false →
      (handleClientText env config origin text q).queue = q ∧
        (handleClientText env config origin text q).outcome.acceptedJobIds = []) := by
  rcases handleClientText_cases env config origin text q with h | ⟨m,r,b,jobs,grant,ht,h⟩
  · refine ⟨?_,?_,fun _ => ⟨h.1,h.2.2.1⟩⟩
    · intro message _ _
      rw [h.2.2.2]
      constructor
      · simp
      · rintro ⟨grant,hg⟩
        exact absurd h.1 (acceptMessage_changes _ _ _ _ _ hg)
    · rw [h.2.2.2]
      simp
  · refine ⟨?_,?_,?_⟩
    · intro message hm _
      obtain rfl : m = message := by
        rw [ht] at hm
        exact Except.ok.inj hm
      exact ⟨fun _ => ⟨grant,h.accept_eq⟩,fun _ => h.queued⟩
    · intro _
      refine ⟨m,r,b,jobs,_,ht,h.request_eq,by rw [h.queue_eq]; rfl,?_,?_,h.ids_eq,h.valid,h.size⟩
      · simp [queuedJobs, Function.comp_def]
      · intro j hj
        obtain ⟨job,-,rfl⟩ := List.mem_map.mp hj
        exact ⟨rfl,rfl⟩
    · rw [h.queued]
      simp

end YinShu.Acceptance
