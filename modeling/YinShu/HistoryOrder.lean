import YinShu.TaskSummary
import YinShu.UtcTimestamp
import Mathlib.Data.List.Dedup
import Mathlib.Data.List.Pairwise

/-!
# The order of the task history

The database compares timestamps as texts. The events of a job come back in
the order of their texts and then of their identifiers, the jobs by the text of
their last update. For a history recorded at instants that never go back, both
listings are in time order exactly when no instant is the beginning of a later
one with which its text is compared.
-/

set_option autoImplicit false

namespace YinShu.HistoryOrder
open YinShu.ErrorState YinShu.Transaction YinShu.TaskHistory YinShu.TaskHistoryStore
open YinShu.TaskSummary YinShu.UtcTimestamp

structure TaskHistoryEvent where
  id : ℕ
  jobId : String
  status : TaskHistoryStatus
  message : Option String
  occurredAt : String
  deriving DecidableEq, Repr

structure TaskHistoryJob where
  jobId : String
  requestId : Option String
  batchId : Option String
  source : TaskHistorySource
  currentStatus : TaskHistoryStatus
  currentMessage : Option String
  printerName : Option String
  paperName : Option String
  copies : Option UInt16
  createdAt : String
  updatedAt : String
  finishedAt : Option String
  deriving DecidableEq, Repr

def sourceFromStorageStr : String → Option TaskHistorySource
  | "web_socket" => some .webSocket
  | "test" => some .test
  | _ => none

def rowToEvent (row : EventRow) : Option TaskHistoryEvent :=
  (TaskHistoryStatus.fromStorageStr row.status).map (fun status =>
    ⟨row.id,row.jobId,status,row.message,row.occurredAt⟩)

def rowToJob (row : JobRow) : Option TaskHistoryJob := do
  let source ← sourceFromStorageStr row.source
  let currentStatus ← TaskHistoryStatus.fromStorageStr row.currentStatus
  return ⟨row.jobId,row.requestId,row.batchId,source,currentStatus,row.currentMessage,
    row.printerName,row.paperName,row.copies,row.createdAt,row.updatedAt,row.finishedAt⟩

/-- `ORDER BY occurred_at ASC, id ASC`. -/
def eventBefore (a b : EventRow) : Bool :=
  a.occurredAt < b.occurredAt || (a.occurredAt == b.occurredAt && a.id ≤ b.id)

/-- `ORDER BY updated_at DESC, job_id DESC`. -/
def jobBefore (a b : JobRow) : Bool :=
  b.updatedAt < a.updatedAt || (a.updatedAt == b.updatedAt && b.jobId ≤ a.jobId)

def eventsForJob (jobId : String) (db : Database) : Option (List TaskHistoryEvent) :=
  ((db.events.filter (fun row => row.jobId == jobId)).mergeSort eventBefore).mapM rowToEvent

/-- The query over the rows of the table, in whatever order they are scanned. -/
def recentJobs (limit : ℕ) (rows : List JobRow) : Option (List TaskHistoryJob) :=
  ((rows.mergeSort jobBefore).take limit).mapM rowToJob

/-- The primary keys of the table of jobs. -/
def Keys (db : Database) (jobIds : List String) : Prop :=
  jobIds.Nodup ∧ ∀ jobId, jobId ∈ jobIds ↔ (db.jobs jobId).isSome = true

def tableRows (db : Database) (jobIds : List String) : List JobRow := jobIds.filterMap db.jobs

abbrev Recording := NewTaskHistoryEvent × UtcInstant

/-- The recorded events with their instants, which never go back. -/
structure Timed (calls : List (Call × Outcomes)) (recordings : List Recording) : Prop where
  recorded : recordings.map Prod.fst = (history calls).recorded
  stamped : ∀ r ∈ recordings, r.1.occurredAt = rfc3339 r.2
  ordered : recordings.Pairwise (fun r q => r.2.nanos ≤ q.2.nanos)

def ofJob (jobId : String) (recordings : List Recording) : List Recording :=
  recordings.filter (fun r => r.1.jobId == jobId)

def lastInstant (recordings : List Recording) (jobId : String) : Option UtcInstant :=
  (ofJob jobId recordings).getLast?.map Prod.snd

/-- The first job was not updated after the second one. -/
def NotNewer (recordings : List Recording) (b a : String) : Prop :=
  ∀ s ∈ lastInstant recordings a, ∀ t ∈ lastInstant recordings b, t.nanos ≤ s.nanos

/-- No instant truncates that of a later event of its job. -/
def EventsApart (recordings : List Recording) : Prop :=
  ∀ jobId, (ofJob jobId recordings).Pairwise (fun r q => ¬Truncates r.2 q.2)

/-- No job was last updated at an instant that truncates that of another's last update. -/
def UpdatesApart (recordings : List Recording) : Prop :=
  ∀ a b, ∀ s ∈ lastInstant recordings a, ∀ t ∈ lastInstant recordings b, ¬Truncates s t

def shownData (event : TaskHistoryEvent) : String × String × Option String × String :=
  (event.jobId,event.status.asStr,event.message,event.occurredAt)

def EventsInOrder (db : Database) (recordings : List Recording) : Prop :=
  ∀ jobId, ∃ events, eventsForJob jobId db = some events ∧
    events.map shownData = (ofJob jobId recordings).map (fun r => eventData r.1)

/-- Every listing of jobs puts newer ones first, leaves out none that is newer than a listed
one, and is as long as it may be. -/
def MostRecentFirst (db : Database) (recordings : List Recording) : Prop :=
  ∀ jobIds limit, Keys db jobIds → ∃ jobs, recentJobs limit (tableRows db jobIds) = some jobs ∧
    (jobs.map TaskHistoryJob.jobId).Pairwise (fun a b => NotNewer recordings b a) ∧
    (∀ a ∈ jobs.map TaskHistoryJob.jobId, ∀ b, b ∉ jobs.map TaskHistoryJob.jobId →
      NotNewer recordings b a) ∧
    (jobs.length = limit ∨ ∀ jobId ∈ jobIds, jobId ∈ jobs.map TaskHistoryJob.jobId)

section Decoding

/-- A total decoding of the elements decodes the list. -/
theorem mapM_some {α β γ : Type} {f : α → Option β} {g : β → γ} {h : α → γ} {xs : List α}
    (hf : ∀ x ∈ xs, ∃ y, f x = some y ∧ g y = h x) :
    ∃ ys, xs.mapM f = some ys ∧ ys.map g = xs.map h := by
  induction xs with
  | nil => exact ⟨[],rfl,rfl⟩
  | cons x xs ih =>
    obtain ⟨y,hy,hg⟩ := hf x (by simp)
    obtain ⟨ys,hys,hgs⟩ := ih (fun z hz => hf z (by simp [hz]))
    exact ⟨y::ys,by simp [hy,hys],by simp [hg,hgs]⟩

/-- Of two elements of an ordered list one comes before the other. -/
theorem pairwise_or {α : Type} {R : α → α → Prop} {xs : List α} (h : xs.Pairwise R) {x y : α}
    (hx : x ∈ xs) (hy : y ∈ xs) (hne : x ≠ y) : R x y ∨ R y x := by
  have heither : xs.Pairwise (fun v w => R v w ∨ R w v) := h.imp Or.inl
  have hsymm : Std.Symm (fun v w => R v w ∨ R w v) := ⟨fun _ _ h => h.symm⟩
  exact heither.forall hx hy hne

theorem rowToEvent_recorded {row : EventRow} {event : NewTaskHistoryEvent}
    (h : rowData row = eventData event) :
    ∃ shown, rowToEvent row = some shown ∧ shownData shown = rowData row := by
  obtain ⟨-,hs,-,-⟩ : row.jobId = event.jobId ∧ row.status = event.status.asStr ∧
    row.message = event.message ∧ row.occurredAt = event.occurredAt := by
      simpa [rowData,eventData] using h
  refine ⟨⟨row.id,row.jobId,event.status,row.message,row.occurredAt⟩,?_,?_⟩
  · simp [rowToEvent,hs]
  · simp [shownData,rowData,hs]

theorem rowToJob_summary {jobId : String} {events : List NewTaskHistoryEvent} {row : JobRow}
    (h : summary jobId events = some row) :
    ∃ job, rowToJob row = some job ∧ job.jobId = row.jobId := by
  unfold summary at h
  split at h
  · rename_i first last _ _
    cases h
    have hsource : sourceFromStorageStr last.source.asStr = some last.source := by
      cases last.source <;> rfl
    simp [rowToJob,hsource]
  · cases h

end Decoding

section Identifiers

/-- The rows of events are in the order of their identifiers. -/
def IdsIncrease (db : Database) : Prop :=
  db.events.Pairwise (fun a b => a.id < b.id) ∧ ∀ row ∈ db.events, row.id ≤ db.lastId

theorem idsIncrease_insert {db : Database} (h : IdsIncrease db) (event : NewTaskHistoryEvent) :
    IdsIncrease (insertEvent event db) := by
  constructor
  · refine List.pairwise_append.mpr ⟨h.1,by simp,fun row hr last hl => ?_⟩
    rw [List.mem_singleton.mp hl]
    exact Nat.lt_succ_of_le (h.2 row hr)
  · intro row hr
    rcases List.mem_append.mp hr with hr | hr
    · exact Nat.le_succ_of_le (h.2 row hr)
    · rw [List.mem_singleton.mp hr]
      exact Nat.le_refl _

theorem perform_ids {db : Database} (h : IdsIncrease db) (o : Outcomes) (call : Call) :
    Ensures (perform o call) ⟨db,none⟩ (fun _ t => IdsIncrease t.committed)
      (fun _ t => IdsIncrease t.committed) := by
  have hfail : ∀ (e : String) (t : Connection Database), t = ⟨db,none⟩ →
      IdsIncrease t.committed := by
    rintro e t rfl
    exact h
  cases call with
  | recordEvent event =>
    refine (twoStatements_rule _ _).mono ?_ hfail
    rintro _ t rfl
    exact idsIncrease_insert h event
  | clear =>
    refine (twoStatements_rule _ _).mono ?_ hfail
    rintro _ t rfl
    exact ⟨List.Pairwise.nil,fun row hr => (nomatch hr)⟩
  | reopen =>
    refine (twoStatements_rule _ _).mono ?_ hfail
    rintro _ t rfl
    exact ⟨h.1.filter _,fun row hr => h.2 row (List.mem_of_mem_filter hr)⟩

theorem step_ids {h : History} (hi : Inv h) (hids : IdsIncrease h.conn.committed)
    (call : Call × Outcomes) : IdsIncrease (step h call).conn.committed := by
  have hr := perform_ids hids call.2 call.1
  rw [← hi.conn_eq] at hr
  unfold Ensures at hr
  unfold step
  split at hr <;> rename_i hp <;> rw [hp] <;> exact hr

theorem history_ids (calls : List (Call × Outcomes)) :
    IdsIncrease (history calls).conn.committed := by
  suffices h : ∀ s : History, Inv s → IdsIncrease s.conn.committed →
      IdsIncrease (calls.foldl step s).conn.committed from
    h _ ⟨rfl,fun _ => rfl,rfl⟩ ⟨List.Pairwise.nil,fun row hr => (nomatch hr)⟩
  intro s hi hids
  induction calls generalizing s with
  | nil => exact hids
  | cons call calls ih => exact ih (step s call) (step_inv hi call) (step_ids hi hids call)

end Identifiers

section Events

variable {calls : List (Call × Outcomes)} {recordings : List Recording}

theorem eventsOf_recorded (ht : Timed calls recordings) (jobId : String) :
    eventsOf jobId (history calls).recorded = (ofJob jobId recordings).map Prod.fst := by
  rw [← ht.recorded,eventsOf,ofJob,List.filter_map]
  rfl

theorem rowsOfJob (calls : List (Call × Outcomes)) (jobId : String) :
    ((history calls).conn.committed.events.filter (fun row => row.jobId == jobId)).map rowData =
      (eventsOf jobId (history calls).recorded).map eventData := by
  have hevents := (history_inv calls).events
  have hrows : ∀ rows : List EventRow, (rows.filter (fun row => row.jobId == jobId)).map rowData =
      (rows.map rowData).filter (fun data => data.1 == jobId) := by
    intro rows
    rw [List.filter_map]
    rfl
  rw [hrows,hevents,List.filter_map]
  rfl

theorem eventBefore_trans (a b c : EventRow) (hab : eventBefore a b = true)
    (hbc : eventBefore b c = true) : eventBefore a c = true := by
  simp only [eventBefore,Bool.or_eq_true,Bool.and_eq_true,decide_eq_true_eq,beq_iff_eq] at *
  rcases hab with hab | ⟨hab,hi⟩ <;> rcases hbc with hbc | ⟨hbc,hj⟩
  · exact Or.inl (String.lt_trans hab hbc)
  · exact Or.inl (hbc ▸ hab)
  · exact Or.inl (hab ▸ hbc)
  · exact Or.inr ⟨hab.trans hbc,hi.trans hj⟩

theorem eventBefore_total (a b : EventRow) : (eventBefore a b || eventBefore b a) = true := by
  simp only [eventBefore,Bool.or_eq_true,Bool.and_eq_true,decide_eq_true_eq,beq_iff_eq]
  by_cases hab : a.occurredAt = b.occurredAt
  · rcases Nat.le_total a.id b.id with h | h
    · exact Or.inl (Or.inr ⟨hab,h⟩)
    · exact Or.inr (Or.inr ⟨hab.symm,h⟩)
  · rcases String.le_total a.occurredAt b.occurredAt with h | h
    · exact Or.inl (Or.inl (String.not_le.mp (fun hba => hab (String.le_antisymm h hba))))
    · exact Or.inr (Or.inl (String.not_le.mp (fun hba => hab (String.le_antisymm hba h))))

theorem eventBefore_le {a b : EventRow} (h : eventBefore a b = true) :
    a.occurredAt ≤ b.occurredAt := by
  simp only [eventBefore,Bool.or_eq_true,Bool.and_eq_true,decide_eq_true_eq,beq_iff_eq] at h
  rcases h with h | ⟨h,-⟩
  · exact String.not_lt.mp (String.lt_asymm h)
  · exact h ▸ String.le_refl _

theorem eventBefore_of_le {a b : EventRow} (h : a.occurredAt ≤ b.occurredAt) (hi : a.id < b.id) :
    eventBefore a b = true := by
  simp only [eventBefore,Bool.or_eq_true,Bool.and_eq_true,decide_eq_true_eq,beq_iff_eq]
  by_cases hab : a.occurredAt = b.occurredAt
  · exact Or.inr ⟨hab,Nat.le_of_lt hi⟩
  · exact Or.inl (String.not_le.mp (fun hba => hab (String.le_antisymm h hba)))

/-- The query returns the rows of the job as they were recorded exactly when their texts
never go back. -/
theorem eventsForJob_iff (calls : List (Call × Outcomes)) (jobId : String) :
    (∃ events, eventsForJob jobId (history calls).conn.committed = some events ∧
      events.map shownData = (eventsOf jobId (history calls).recorded).map eventData) ↔
      (eventsOf jobId (history calls).recorded).Pairwise
        (fun a b => a.occurredAt ≤ b.occurredAt) := by
  have hdata := rowsOfJob calls jobId
  have hids : ((history calls).conn.committed.events.filter
      (fun row => row.jobId == jobId)).Pairwise (fun a b => a.id < b.id) :=
    (history_ids calls).1.filter _
  unfold eventsForJob
  generalize (history calls).conn.committed.events.filter _ = rows at hdata hids ⊢
  generalize eventsOf jobId (history calls).recorded = events at hdata ⊢
  have hperm := List.mergeSort_perm rows eventBefore
  have hvalid : ∀ row ∈ rows.mergeSort eventBefore,
      ∃ shown, rowToEvent row = some shown ∧ shownData shown = rowData row := by
    intro row hr
    have hm : rowData row ∈ events.map eventData := by
      rw [← hdata]
      exact List.mem_map_of_mem (hperm.mem_iff.mp hr)
    obtain ⟨event,-,he⟩ := List.mem_map.mp hm
    exact rowToEvent_recorded he.symm
  obtain ⟨shown,hs,hsd⟩ := mapM_some hvalid
  have htexts : ∀ l : List EventRow, l.map rowData = events.map eventData →
      l.map EventRow.occurredAt = events.map NewTaskHistoryEvent.occurredAt := by
    intro l hl
    have h := congrArg (List.map (fun d => d.2.2.2)) hl
    simpa [rowData,eventData,Function.comp_def] using h
  rw [← List.pairwise_map (f := NewTaskHistoryEvent.occurredAt) (R := fun s t => s ≤ t)]
  constructor
  · rintro ⟨found,hf,hfd⟩
    obtain rfl := Option.some.inj (hs.symm.trans hf)
    rw [← htexts _ (hsd.symm.trans hfd),List.pairwise_map]
    exact (List.pairwise_mergeSort eventBefore_trans eventBefore_total rows).imp eventBefore_le
  · intro hp
    rw [← htexts rows hdata,List.pairwise_map] at hp
    have hsorted : rows.mergeSort eventBefore = rows :=
      List.mergeSort_of_pairwise ((hp.and hids).imp (fun h => eventBefore_of_le h.1 h.2))
    rw [hsorted] at hs hsd
    exact ⟨shown,by rw [hsorted,hs],hsd.trans hdata⟩

/-- For recordings in order, texts in order are instants none of which truncates a later
one. -/
theorem eventsInOrder_iff (ht : Timed calls recordings) :
    EventsInOrder (history calls).conn.committed recordings ↔ EventsApart recordings := by
  refine forall_congr' (fun jobId => ?_)
  have hiff := eventsForJob_iff calls jobId
  rw [eventsOf_recorded ht,List.map_map,List.pairwise_map] at hiff
  refine hiff.trans ?_
  have hordered : (ofJob jobId recordings).Pairwise (fun r q => r.2.nanos ≤ q.2.nanos) :=
    ht.ordered.filter _
  have hle : ∀ {r q}, r ∈ ofJob jobId recordings → q ∈ ofJob jobId recordings →
      r.2.nanos ≤ q.2.nanos → (r.1.occurredAt ≤ q.1.occurredAt ↔ ¬Truncates r.2 q.2) := by
    intro r q hr hq hn
    rw [ht.stamped r (List.mem_of_mem_filter hr),ht.stamped q (List.mem_of_mem_filter hq)]
    exact rfc3339_le_iff hn
  constructor
  · exact fun hp => (hp.and hordered).imp_of_mem (fun hr hq h => (hle hr hq h.2).mp h.1)
  · exact fun hp => (hp.and hordered).imp_of_mem (fun hr hq h => (hle hr hq h.2).mpr h.1)

end Events

section Jobs

variable {calls : List (Call × Outcomes)} {recordings : List Recording}

/-- The row of a job carries the text of its last instant. -/
theorem jobRow (ht : Timed calls recordings) {jobId : String} {row : JobRow}
    (hr : (history calls).conn.committed.jobs jobId = some row) :
    ∃ t, lastInstant recordings jobId = some t ∧ row.updatedAt = rfc3339 t ∧
      row.jobId = jobId := by
  rw [(history_inv calls).jobs,eventsOf_recorded ht] at hr
  unfold summary at hr
  split at hr
  · rename_i first last _ hl
    cases hr
    rw [List.getLast?_map] at hl
    obtain ⟨r,hr,rfl⟩ := Option.map_eq_some_iff.mp hl
    exact ⟨r.2,by simp [lastInstant,hr],
      ht.stamped r (List.mem_of_mem_filter (List.mem_of_getLast? hr)),rfl⟩
  · cases hr

theorem jobRow_of_lastInstant (ht : Timed calls recordings) {jobId : String} {t : UtcInstant}
    (hl : lastInstant recordings jobId = some t) :
    ∃ row, (history calls).conn.committed.jobs jobId = some row := by
  rw [← Option.isSome_iff_exists,← Option.ne_none_iff_isSome,(history_inv calls).jobs,
    eventsOf_recorded ht]
  intro hn
  have hnil : ofJob jobId recordings = [] := List.map_eq_nil_iff.mp (summary_none.mp hn)
  simp [lastInstant,hnil] at hl

theorem keys_exist (calls : List (Call × Outcomes)) :
    ∃ jobIds, Keys (history calls).conn.committed jobIds := by
  refine ⟨((history calls).recorded.map NewTaskHistoryEvent.jobId).dedup,List.nodup_dedup _,
    fun jobId => ?_⟩
  rw [List.mem_dedup,List.mem_map,← Option.ne_none_iff_isSome,(history_inv calls).jobs,ne_eq,
    summary_none]
  simp [eventsOf]

theorem jobBefore_trans (a b c : JobRow) (hab : jobBefore a b = true)
    (hbc : jobBefore b c = true) : jobBefore a c = true := by
  simp only [jobBefore,Bool.or_eq_true,Bool.and_eq_true,decide_eq_true_eq,beq_iff_eq] at *
  rcases hab with hab | ⟨hab,hi⟩ <;> rcases hbc with hbc | ⟨hbc,hj⟩
  · exact Or.inl (String.lt_trans hbc hab)
  · exact Or.inl (hbc ▸ hab)
  · exact Or.inl (hab ▸ hbc)
  · exact Or.inr ⟨hab.trans hbc,String.le_trans hj hi⟩

theorem jobBefore_total (a b : JobRow) : (jobBefore a b || jobBefore b a) = true := by
  simp only [jobBefore,Bool.or_eq_true,Bool.and_eq_true,decide_eq_true_eq,beq_iff_eq]
  by_cases hab : a.updatedAt = b.updatedAt
  · rcases String.le_total b.jobId a.jobId with h | h
    · exact Or.inl (Or.inr ⟨hab,h⟩)
    · exact Or.inr (Or.inr ⟨hab.symm,h⟩)
  · rcases String.le_total b.updatedAt a.updatedAt with h | h
    · exact Or.inl (Or.inl (String.not_le.mp (fun hba => hab (String.le_antisymm hba h))))
    · exact Or.inr (Or.inl (String.not_le.mp (fun hba => hab (String.le_antisymm h hba))))

theorem jobBefore_le {a b : JobRow} (h : jobBefore a b = true) : b.updatedAt ≤ a.updatedAt := by
  simp only [jobBefore,Bool.or_eq_true,Bool.and_eq_true,decide_eq_true_eq,beq_iff_eq] at h
  rcases h with h | ⟨h,-⟩
  · exact String.not_lt.mp (String.lt_asymm h)
  · exact h ▸ String.le_refl _

theorem mem_tableRows {db : Database} {jobIds : List String} (hk : Keys db jobIds)
    {row : JobRow} : row ∈ tableRows db jobIds ↔ ∃ jobId, db.jobs jobId = some row := by
  rw [tableRows,List.mem_filterMap]
  constructor
  · exact fun ⟨jobId,_,hr⟩ => ⟨jobId,hr⟩
  · exact fun ⟨jobId,hr⟩ => ⟨jobId,(hk.2 jobId).mpr (by rw [hr]; rfl),hr⟩

/-- The rows of the table as the listing sorts them. -/
abbrev sortedRows (calls : List (Call × Outcomes)) (jobIds : List String) : List JobRow :=
  (tableRows (history calls).conn.committed jobIds).mergeSort jobBefore

theorem mem_sortedRows (calls : List (Call × Outcomes)) {jobIds : List String}
    (hk : Keys (history calls).conn.committed jobIds) {row : JobRow} :
    row ∈ sortedRows calls jobIds ↔ ∃ jobId, (history calls).conn.committed.jobs jobId = some row :=
  (List.mergeSort_perm _ _).mem_iff.trans (mem_tableRows hk)

/-- A listing shows the first rows of the sorted table. -/
theorem recentJobs_shown (calls : List (Call × Outcomes)) {jobIds : List String}
    (hk : Keys (history calls).conn.committed jobIds) (limit : ℕ) :
    ∃ jobs, recentJobs limit (tableRows (history calls).conn.committed jobIds) = some jobs ∧
      jobs.map TaskHistoryJob.jobId = ((sortedRows calls jobIds).take limit).map JobRow.jobId := by
  refine mapM_some (fun row hr => ?_)
  obtain ⟨jobId,hj⟩ := (mem_sortedRows calls hk).mp (List.mem_of_mem_take hr)
  rw [(history_inv calls).jobs] at hj
  exact rowToJob_summary hj

/-- When no last update truncates another, rows sorted by their texts are sorted by time. -/
theorem sorted_notNewer (ht : Timed calls recordings) (hu : UpdatesApart recordings)
    {jobIds : List String} (hk : Keys (history calls).conn.committed jobIds) :
    (sortedRows calls jobIds).Pairwise (fun x y => NotNewer recordings y.jobId x.jobId) := by
  refine (List.pairwise_mergeSort jobBefore_trans jobBefore_total _).imp_of_mem ?_
  intro x y hx hy hxy s hs t hl
  obtain ⟨a,ha⟩ := (mem_sortedRows calls hk).mp hx
  obtain ⟨b,hb⟩ := (mem_sortedRows calls hk).mp hy
  obtain ⟨s',hs',hxs,rfl⟩ := jobRow ht ha
  obtain ⟨t',ht',hyt,rfl⟩ := jobRow ht hb
  obtain rfl : s' = s := Option.some.inj (hs'.symm.trans hs)
  obtain rfl : t' = t := Option.some.inj (ht'.symm.trans hl)
  have hle := jobBefore_le hxy
  rw [hxs,hyt] at hle
  exact nanos_le_of_rfc3339_le hle (hu _ _ _ hs _ hl)

/-- A job that is not among the first rows is not newer than one that is. -/
theorem unlisted_notNewer (ht : Timed calls recordings) (hu : UpdatesApart recordings)
    {jobIds : List String} (hk : Keys (history calls).conn.committed jobIds) (limit : ℕ)
    {a b : String} (ha : a ∈ ((sortedRows calls jobIds).take limit).map JobRow.jobId)
    (hb : b ∉ ((sortedRows calls jobIds).take limit).map JobRow.jobId) :
    NotNewer recordings b a := by
  intro s hs t hl
  have hsorted := sorted_notNewer ht hu hk
  obtain ⟨row,hr⟩ := jobRow_of_lastInstant ht hl
  obtain ⟨-,-,-,hid⟩ := jobRow ht hr
  obtain ⟨first,hf,rfl⟩ := List.mem_map.mp ha
  have hrow := (mem_sortedRows calls hk).mpr ⟨b,hr⟩
  rw [← List.take_append_drop limit (sortedRows calls jobIds)] at hsorted hrow
  rw [List.pairwise_append] at hsorted
  rcases List.mem_append.mp hrow with hrow | hrow
  · exact absurd (List.mem_map.mpr ⟨row,hrow,hid⟩) hb
  · exact hsorted.2.2 first hf row hrow s hs t (hid ▸ hl)

theorem key_sorted (ht : Timed calls recordings) {jobIds : List String}
    (hk : Keys (history calls).conn.committed jobIds) {jobId : String} (hj : jobId ∈ jobIds) :
    jobId ∈ (sortedRows calls jobIds).map JobRow.jobId := by
  obtain ⟨row,hr⟩ := Option.isSome_iff_exists.mp ((hk.2 jobId).mp hj)
  obtain ⟨-,-,-,hid⟩ := jobRow ht hr
  exact List.mem_map.mpr ⟨row,(mem_sortedRows calls hk).mpr ⟨jobId,hr⟩,hid⟩

theorem mostRecentFirst_of_apart (ht : Timed calls recordings) (hu : UpdatesApart recordings) :
    MostRecentFirst (history calls).conn.committed recordings := by
  intro jobIds limit hk
  obtain ⟨jobs,hj,hm⟩ := recentJobs_shown calls hk limit
  refine ⟨jobs,hj,?_,?_,?_⟩
  · rw [hm,List.pairwise_map]
    exact (sorted_notNewer ht hu hk).sublist (List.take_sublist _ _)
  · intro a ha b hb
    rw [hm] at ha hb
    exact unlisted_notNewer ht hu hk limit ha hb
  · by_cases hlen : (sortedRows calls jobIds).length ≤ limit
    · right
      intro jobId hj
      rw [hm,List.take_of_length_le hlen]
      exact key_sorted ht hk hj
    · left
      have hlength := congrArg List.length hm
      rw [List.length_map,List.length_map,List.length_take] at hlength
      omega

/-- A last update that truncates another puts its job on the wrong side. -/
theorem apart_of_mostRecentFirst (ht : Timed calls recordings)
    (hm : MostRecentFirst (history calls).conn.committed recordings) :
    UpdatesApart recordings := by
  intro a b s hs t hl htr
  obtain ⟨jobIds,hk⟩ := keys_exist calls
  obtain ⟨x,hx⟩ := jobRow_of_lastInstant ht hs
  obtain ⟨y,hy⟩ := jobRow_of_lastInstant ht hl
  obtain ⟨s',hs',hxs,rfl⟩ := jobRow ht hx
  obtain ⟨t',ht',hyt,rfl⟩ := jobRow ht hy
  obtain rfl : s' = s := Option.some.inj (hs'.symm.trans hs)
  obtain rfl : t' = t := Option.some.inj (ht'.symm.trans hl)
  obtain ⟨jobs,hj,hpair,-,-⟩ := hm jobIds (sortedRows calls jobIds).length hk
  obtain ⟨jobs',hj',hshown⟩ := recentJobs_shown calls hk (sortedRows calls jobIds).length
  obtain rfl : jobs = jobs' := Option.some.inj (hj.symm.trans hj')
  rw [hshown,List.take_length,List.pairwise_map] at hpair
  have hsorted := List.pairwise_mergeSort jobBefore_trans jobBefore_total
    (tableRows (history calls).conn.committed jobIds)
  have hne : x ≠ y := by
    rintro rfl
    obtain rfl : s' = t' := Option.some.inj (hs.symm.trans hl)
    exact Nat.lt_irrefl _ htr.1
  have hxm := (mem_sortedRows calls hk).mpr ⟨_,hx⟩
  have hym := (mem_sortedRows calls hk).mpr ⟨_,hy⟩
  rcases pairwise_or (hpair.and hsorted) hxm hym hne with ⟨hn,-⟩ | ⟨-,hb⟩
  · exact Nat.not_lt.mpr (hn _ hs _ hl) htr.1
  · have hle := jobBefore_le hb
    rw [hxs,hyt] at hle
    exact String.not_le.mpr (rfc3339_gt htr) hle

end Jobs

/-- For a history recorded at instants that never go back, the listings are in time order
exactly when no instant truncates a later one that its text is compared with. -/
theorem history_order_iff {calls : List (Call × Outcomes)} {recordings : List Recording}
    (ht : Timed calls recordings) :
    (EventsInOrder (history calls).conn.committed recordings ∧
      MostRecentFirst (history calls).conn.committed recordings) ↔
      EventsApart recordings ∧ UpdatesApart recordings :=
  and_congr (eventsInOrder_iff ht)
    ⟨apart_of_mostRecentFirst ht,mostRecentFirst_of_apart ht⟩

def tenOClock (nanosecond : ℕ) (h : nanosecond < 10^9) : UtcInstant where
  year := 2026
  month := 7
  day := 6
  hour := 10
  minute := 0
  second := 0
  nanosecond := nanosecond
  year_lt := by decide
  month_mem := by decide
  day_mem := by decide
  hour_lt := by decide
  minute_lt := by decide
  second_lt := by decide
  nanosecond_lt := h

example : rfc3339 (tenOClock 500000000 (by decide)) = "2026-07-06T10:00:00.5Z" := by
  decide +kernel

def stamped (jobId : String) (status : TaskHistoryStatus) (t : UtcInstant) : Recording :=
  ({ labelEvent status (rfc3339 t) with jobId := jobId },t)

def allRecorded (recordings : List Recording) : List (Call × Outcomes) :=
  recordings.map (fun r => (.recordEvent r.1,{}))

/-- A job is queued and printed, and then another one is queued. -/
def withinSecond (queued printing other : UtcInstant) : List Recording :=
  [stamped "LABEL-1" .queued queued,stamped "LABEL-1" .printing printing,
    stamped "LABEL-2" .queued other]

theorem withinSecond_timed {queued printing other : UtcInstant}
    (hq : queued.nanos ≤ printing.nanos) (hp : printing.nanos ≤ other.nanos) :
    Timed (allRecorded (withinSecond queued printing other))
      (withinSecond queued printing other) where
  recorded := rfl
  stamped := by simp [withinSecond,HistoryOrder.stamped,labelEvent]
  ordered := by simpa [withinSecond,HistoryOrder.stamped] using ⟨⟨hq,hq.trans hp⟩,hp⟩

theorem lastInstant_mem {recordings : List Recording} {jobId : String} {t : UtcInstant}
    (h : t ∈ lastInstant recordings jobId) : ∃ r ∈ recordings, r.2 = t := by
  obtain ⟨r,hr,rfl⟩ := Option.map_eq_some_iff.mp h
  exact ⟨r,List.mem_of_mem_filter (List.mem_of_getLast? hr),rfl⟩

theorem apart_of_all {recordings : List Recording}
    (h : ∀ r ∈ recordings, ∀ q ∈ recordings, ¬Truncates r.2 q.2) :
    EventsApart recordings ∧ UpdatesApart recordings := by
  constructor
  · intro jobId
    refine List.pairwise_iff_forall_sublist.mpr (fun {r q} hs => ?_)
    exact h r (List.mem_of_mem_filter (hs.subset (by simp))) q
      (List.mem_of_mem_filter (hs.subset (by simp)))
  · intro a b s hs t ht
    obtain ⟨r,hr,rfl⟩ := lastInstant_mem hs
    obtain ⟨q,hq,rfl⟩ := lastInstant_mem ht
    exact h r hr q hq

def apartRecordings : List Recording :=
  withinSecond (tenOClock 100000000 (by decide)) (tenOClock 200000000 (by decide))
    (tenOClock 300000000 (by decide))

theorem tenths_in_order :
    EventsInOrder (history (allRecorded apartRecordings)).conn.committed apartRecordings ∧
      MostRecentFirst (history (allRecorded apartRecordings)).conn.committed apartRecordings :=
  (history_order_iff (withinSecond_timed (by decide +kernel) (by decide +kernel))).mpr
    (apart_of_all (by decide +kernel))

/-- The job is queued on a full second, printed half a second later, and the other job is
queued five hundredths after that. -/
def truncatedRecordings : List Recording :=
  withinSecond (tenOClock 0 (by decide)) (tenOClock 500000000 (by decide))
    (tenOClock 550000000 (by decide))

/-- The printing of the job comes before its queueing, and the job that was updated last
comes last. -/
theorem history_out_of_order : ∃ calls recordings, Timed calls recordings ∧
    ¬EventsInOrder (history calls).conn.committed recordings ∧
    ¬MostRecentFirst (history calls).conn.committed recordings := by
  have ht : Timed (allRecorded truncatedRecordings) truncatedRecordings :=
    withinSecond_timed (by decide +kernel) (by decide +kernel)
  refine ⟨_,_,ht,?_,?_⟩
  · intro h
    have hp := (eventsInOrder_iff ht).mp h "LABEL-1"
    exact absurd hp (by decide +kernel)
  · intro h
    have hu := apart_of_mostRecentFirst ht h "LABEL-1" "LABEL-2" _ rfl _ rfl
    exact absurd hu (by decide +kernel)

end YinShu.HistoryOrder
