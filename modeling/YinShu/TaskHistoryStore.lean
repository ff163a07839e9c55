import Mathlib.Logic.Function.Basic
import YinShu.TaskHistory
import YinShu.Transaction

/-!
# The task history database

Two tables: one row per job, keyed by its identifier and updated in place, and
one row per event. Recording, clearing and the cleanup at opening are each one
transaction of two statements. Statuses and sources are stored as texts.
-/

set_option autoImplicit false

namespace YinShu.TaskHistoryStore
open YinShu.ErrorState YinShu.Transaction YinShu.TaskHistory

structure JobRow where
  jobId : String
  requestId : Option String
  batchId : Option String
  source : String
  currentStatus : String
  currentMessage : Option String
  printerName : Option String
  paperName : Option String
  copies : Option UInt16
  createdAt : String
  updatedAt : String
  finishedAt : Option String
  deriving DecidableEq, Repr

structure EventRow where
  id : ℕ
  jobId : String
  status : String
  message : Option String
  occurredAt : String
  deriving DecidableEq, Repr

/-- `lastId` is the largest identifier ever given to an event. -/
structure Database where
  jobs : String → Option JobRow
  events : List EventRow
  lastId : ℕ

def Database.empty : Database := ⟨fun _ => none,[],0⟩

/-- The time that a recorded event contributes to `finished_at`. -/
def finishedAt (event : NewTaskHistoryEvent) : Option String :=
  if event.status.isTerminal then some event.occurredAt else none

def insertEvent (event : NewTaskHistoryEvent) (db : Database) : Database := { db with
  events := db.events++[⟨db.lastId+1,event.jobId,event.status.asStr,event.message,
    event.occurredAt⟩]
  lastId := db.lastId+1 }

/-- The values of the inserted row, `excluded` in the conflict clause. -/
def excluded (event : NewTaskHistoryEvent) : JobRow where
  jobId := event.jobId
  requestId := event.requestId
  batchId := event.batchId
  source := event.source.asStr
  currentStatus := event.status.asStr
  currentMessage := event.message
  printerName := event.printerName
  paperName := event.paperName
  copies := event.copies
  createdAt := event.occurredAt
  updatedAt := event.occurredAt
  finishedAt := finishedAt event

def onConflict (excluded row : JobRow) : JobRow := { row with
  requestId := excluded.requestId.or row.requestId
  batchId := excluded.batchId.or row.batchId
  source := excluded.source
  currentStatus := excluded.currentStatus
  currentMessage := excluded.currentMessage
  printerName := excluded.printerName.or row.printerName
  paperName := excluded.paperName.or row.paperName
  copies := excluded.copies.or row.copies
  updatedAt := excluded.updatedAt
  finishedAt := excluded.finishedAt.or row.finishedAt }

/-- The row of the job after the statement, given the one before it. -/
def upserted (event : NewTaskHistoryEvent) : Option JobRow → JobRow
  | some row => onConflict (excluded event) row
  | none => excluded event

def upsertJob (event : NewTaskHistoryEvent) (db : Database) : Database := { db with
  jobs := Function.update db.jobs event.jobId (some (upserted event (db.jobs event.jobId))) }

def isRemote (row : JobRow) : Bool := row.source == "remote"

def deleteRemoteEvents (db : Database) : Database := { db with
  events := db.events.filter (fun event => !(db.jobs event.jobId).any isRemote) }

def deleteRemoteJobs (db : Database) : Database := { db with
  jobs := fun jobId => (db.jobs jobId).filter (fun row => !isRemote row) }

/-- The outcome of taking the lock, and of the four steps of a transaction. -/
structure Outcomes where
  lock : Option String := none
  start : Option String := none
  first : Option String := none
  second : Option String := none
  commit : Option String := none
  deriving DecidableEq, Repr

variable (o : Outcomes)

def twoStatements (first second : Database → Database) : Session Database PUnit :=
  failing o.lock (transaction o.start (do
    execute first o.first
    execute second o.second) o.commit)

def recordEvent (event : NewTaskHistoryEvent) : Session Database PUnit :=
  twoStatements o (insertEvent event) (upsertJob event)

def clear : Session Database PUnit :=
  twoStatements o (fun db => { db with events := [] }) (fun db => { db with jobs := fun _ => none })

def purgeRemovedSources : Session Database PUnit :=
  twoStatements o deleteRemoteEvents deleteRemoteJobs

variable {o} {db : Database}

theorem twoStatements_rule (first second : Database → Database) :
    Ensures (twoStatements o first second) ⟨db,none⟩ (fun _ t => t = ⟨second (first db),none⟩)
      (fun _ t => t = ⟨db,none⟩) := by
  refine failing_rule (transaction_rule ?_) (fun _ => rfl)
  refine (execute_rule (E := fun _ t => t.committed = db) first db (fun _ => rfl)).bind ?_
    (fun _ _ h => h)
  rintro _ _ rfl
  exact execute_rule second (first db) (fun _ => rfl)

end YinShu.TaskHistoryStore
