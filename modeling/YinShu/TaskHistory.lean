import YinShu.Protocol

/-!
# Status records of the task history

The statuses that the history stores, which of them end a job, and the event
that the worker hands to the store for each status it reports.
-/

set_option autoImplicit false

namespace YinShu.TaskHistory
open YinShu.Protocol

inductive TaskHistoryStatus where
  | queued | downloading | printing | submitted | completed | failed | unknown | cancelled
  deriving DecidableEq, Repr

def TaskHistoryStatus.isTerminal : TaskHistoryStatus → Bool
  | .submitted | .completed | .failed | .unknown | .cancelled => true
  | _ => false

def TaskHistoryStatus.asStr : TaskHistoryStatus → String
  | .queued => "queued"
  | .downloading => "downloading"
  | .printing => "printing"
  | .submitted => "submitted"
  | .completed => "completed"
  | .failed => "failed"
  | .unknown => "unknown"
  | .cancelled => "cancelled"

def TaskHistoryStatus.fromStorageStr : String → Option TaskHistoryStatus
  | "queued" => some .queued
  | "downloading" => some .downloading
  | "printing" => some .printing
  | "submitted" => some .submitted
  | "completed" => some .completed
  | "failed" => some .failed
  | "unknown" => some .unknown
  | "cancelled" => some .cancelled
  | _ => none

def taskHistoryStatus : JobStatus → TaskHistoryStatus
  | .queued => .queued
  | .downloading => .downloading
  | .printing => .printing
  | .submitted => .submitted
  | .completed => .completed
  | .failed => .failed
  | .unknown => .unknown
  | .cancelled => .cancelled

inductive TaskHistorySource where
  | webSocket
  | test
  deriving DecidableEq, Repr

def TaskHistorySource.asStr : TaskHistorySource → String
  | .webSocket => "web_socket"
  | .test => "test"

structure NewTaskHistoryEvent where
  jobId : String
  requestId : Option String
  batchId : Option String
  source : TaskHistorySource
  status : TaskHistoryStatus
  message : Option String
  printerName : Option String
  paperName : Option String
  copies : Option UInt16
  occurredAt : String
  deriving DecidableEq, Repr

@[simp] theorem fromStorageStr_asStr (status : TaskHistoryStatus) :
    TaskHistoryStatus.fromStorageStr status.asStr = some status := by
  cases status <;> rfl

end YinShu.TaskHistory
