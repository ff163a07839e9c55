import YinShu.AgentLifecycle
import YinShu.ConfigImport

/-!
# Dispatch of commands

A command runs in the agent behind the local socket or in the offline executor,
as its policy says. The fallback rests on how errors of the connection are
classified, and these on the history of the socket file: only a missing file
counts as an agent that is not running.
-/

set_option autoImplicit false

namespace YinShu.CommandDispatch
open YinShu.Protocol YinShu.Settings YinShu.FunctionalCommand YinShu.ConfigTransfer
open YinShu.LabelledRun YinShu.AgentLifecycle
open YinShu.ConfigImport (ImportPreview previewConfigImport importConfig runtimeError)

variable {R : Type}

/-- What a running agent answers from. -/
structure Operations (R : Type) where
  lib : Primitives
  parsers : Parsers
  config : AgentConfig
  configPath : Option String
  readFile : String → Option String
  configResult : AgentConfig → R
  previewResult : ImportPreview → R
  logs : R
  status : R
  doctor : ProductKind → R
  saveConfig : AgentConfig → Except String R
  listPrinters : Except String R
  listPapers : String → Except String R
  recentJobs : Except String R
  eventsForJob : String → Except String R
  clearTaskHistory : Except String R
  exportConfig : String → String → ExportConfigOptions → Except String R
  testPrint : AgentConfig → Except String R
  loadConfig : String → Except String R
  writeDiagnosticsBundle : Option String → Option String → Except String R

/-- `RuntimeCommandExecutor::execute`. -/
def runtimeExecute (ops : Operations R) : Command → Except CommandError R
  | .getConfig => .ok (ops.configResult ops.config)
  | .saveConfig config => (ops.saveConfig config).mapError runtimeError
  | .listPrinters => ops.listPrinters.mapError runtimeError
  | .listPapers printerName => (ops.listPapers printerName).mapError runtimeError
  | .getLogs => .ok ops.logs
  | .getTaskHistory => ops.recentJobs.mapError runtimeError
  | .getTaskHistoryEvents jobId => (ops.eventsForJob jobId).mapError runtimeError
  | .clearTaskHistory => ops.clearTaskHistory.mapError runtimeError
  | .exportConfig path password options =>
    (ops.exportConfig path password options).mapError runtimeError
  | .previewConfigImport path password =>
    (previewConfigImport ops.lib ops.parsers ops.config (ops.readFile path) password).map
      ops.previewResult
  | .importConfig path password expectedFileHash =>
    match importConfig ops.lib ops.parsers ops.config (ops.readFile path) password
        expectedFileHash with
    | .error error => .error error
    | .ok merged => (ops.saveConfig merged).mapError runtimeError
  | .testPrint config => (ops.testPrint config).mapError runtimeError
  | .validateConfig path =>
    match path.or ops.configPath with
    | none => .error ⟨.invalidInput,"config path is required"⟩
    | some path => (ops.loadConfig path).mapError runtimeError
  | .doctor product => .ok (ops.doctor product)
  | .exportDiagnostics path doctorJson =>
    (ops.writeDiagnosticsBundle path doctorJson).mapError runtimeError
  | .status => .ok ops.status

/-- Where a command was executed. -/
inductive Place where
  | agent (j : ℕ)
  | offline
  deriving DecidableEq, Repr

structure Outcome (R : Type) where
  executions : List Place
  result : Except CommandError R

abbrev Executor (R : Type) := Command → Outcome R

structure CommandService (R : Type) where
  online : Option (Executor R)
  offline : Executor R

def notRunningError : CommandError := ⟨.notRunning,"agent is not running"⟩

def CommandService.execute (service : CommandService R) (command : Command) : Outcome R :=
  match command.policy with
  | .offlineAllowed => service.offline command
  | .onlineOnly =>
    match service.online with
    | none => ⟨[],.error notRunningError⟩
    | some online => online command
  | .onlinePreferred =>
    match service.online with
    | none => service.offline command
    | some online =>
      match (online command).result with
      | .error error =>
        if error.kind = .notRunning then
          ⟨(online command).executions++(service.offline command).executions,
            (service.offline command).result⟩
        else online command
      | .ok _ => online command

inductive ConnectError where
  | notFound
  | permissionDenied (text : String)
  | connectionRefused (text : String)
  | other (text : String)
  deriving DecidableEq, Repr

/-- The classification in `LocalCommandClient::execute`. -/
def connectError : ConnectError → CommandError
  | .notFound => ⟨.notRunning,"agent is not running"⟩
  | .permissionDenied text => ⟨.permissionDenied,text⟩
  | .connectionRefused text | .other text => ⟨.runtime,text⟩

/-- Why a connection to a listening agent can fail all the same. -/
inductive ConnectFault where
  | permissionDenied (text : String)
  | other (text : String)
  deriving DecidableEq, Repr

def ConnectFault.error : ConnectFault → ConnectError
  | .permissionDenied text => .permissionDenied text
  | .other text => .other text

/-- A missing path is not found, a socket file that nobody listens on refuses. -/
def connect (s : Host) (fault : Option ConnectFault) : Except ConnectError ℕ :=
  match s.socket with
  | none => .error .notFound
  | some j =>
    if (s.phase j).listensIpc then
      match fault with
      | none => .ok j
      | some fault => .error fault.error
    else .error (.connectionRefused "Connection refused (os error 111)")

def ipcProtocolVersion : UInt16 := 1
def maxIpcFrameBytes : ℕ := 8*1024*1024

structure CommandRequest where
  protocolVersion : UInt16
  requestId : String
  command : Command

structure CommandResponse (R : Type) where
  protocolVersion : UInt16
  requestId : String
  result : Except CommandError R

inductive ReadFault where
  | timedOut
  | io (text : String)
  | tooLarge
  | malformed (text : String)
  deriving DecidableEq, Repr

def ReadFault.error : ReadFault → CommandError
  | .timedOut => ⟨.runtime,"IPC request timed out"⟩
  | .io text | .malformed text => ⟨.runtime,text⟩
  | .tooLarge => ⟨.invalidInput,"IPC frame is too large"⟩

/-- What happens on one connection: the length of the serialized request, the errors of
writing it and of reading the answer, and whether the agent gets the request whole. -/
structure Wire where
  requestId : String
  serialized : Except String ℕ
  sent : Except String Unit
  delivered : Bool
  received : Except ReadFault Unit

/-- `handle_connection` once it has parsed a request. -/
def handleConnection (place : Place) (execute : Command → Except CommandError R)
    (request : CommandRequest) : List Place × CommandResponse R :=
  if request.protocolVersion = ipcProtocolVersion then
    ([place],⟨ipcProtocolVersion,request.requestId,execute request.command⟩)
  else ([],⟨ipcProtocolVersion,request.requestId,
    .error ⟨.invalidInput,"unsupported IPC protocol version"⟩⟩)

/-- The client's half of an exchange after the frame is written. -/
def readResponse (wire : Wire) (response : Option (CommandResponse R)) :
    Except CommandError R :=
  match wire.received,response with
  | .error fault,_ => .error fault.error
  | .ok _,none => .error ⟨.runtime,"early eof"⟩
  | .ok _,some response =>
    if response.protocolVersion ≠ ipcProtocolVersion ∨ response.requestId ≠ wire.requestId then
      .error ⟨.runtime,"invalid IPC response envelope"⟩
    else response.result

/-- What the agent does with the request and answers, if it gets the request. -/
def answer (place : Place) (execute : Command → Except CommandError R) (wire : Wire)
    (command : Command) : Option (List Place × CommandResponse R) :=
  if wire.delivered then
    some (handleConnection place execute ⟨ipcProtocolVersion,wire.requestId,command⟩)
  else none

def exchange (place : Place) (execute : Command → Except CommandError R) (wire : Wire)
    (command : Command) : Outcome R :=
  match wire.serialized with
  | .error text => ⟨[],.error ⟨.runtime,text⟩⟩
  | .ok length =>
    if maxIpcFrameBytes < length then ⟨[],.error ⟨.invalidInput,"IPC frame is too large"⟩⟩
    else match wire.sent with
      | .error text =>
        ⟨((answer place execute wire command).map Prod.fst).getD [],.error ⟨.runtime,text⟩⟩
      | .ok _ => ⟨((answer place execute wire command).map Prod.fst).getD [],
          readResponse wire ((answer place execute wire command).map Prod.snd)⟩

/-- The executor on the socket path of a host. -/
def localClientExecutor (s : Host) (agents : ℕ → Operations R) (fault : Option ConnectFault)
    (wire : Wire) : Executor R := fun command =>
  match connect s fault with
  | .error error => ⟨[],.error (connectError error)⟩
  | .ok j => exchange (.agent j) (runtimeExecute (agents j)) wire command

def offlineExecutor (execute : Command → Except CommandError R) : Executor R :=
  fun command => ⟨[.offline],execute command⟩

def dispatch (s : Host) (agents : ℕ → Operations R)
    (offline : Command → Except CommandError R) (fault : Option ConnectFault) (wire : Wire)
    (command : Command) : Outcome R :=
  CommandService.execute ⟨some (localClientExecutor s agents fault wire),offlineExecutor offline⟩
    command

/-- The command went to exactly the place that its policy and the agent ask for. -/
structure Dispatched (s : Host) (command : Command) (outcome : Outcome R) : Prop where
  offline : command.policy = .offlineAllowed → outcome.executions = [.offline]
  online : ∀ j, Reachable s j → command.policy ≠ .offlineAllowed →
    outcome.executions = [] ∨ outcome.executions = [.agent j]
  preferred : (∀ j, ¬Reachable s j) → command.policy = .onlinePreferred →
    outcome.executions = [.offline]
  only : (∀ j, ¬Reachable s j) → command.policy = .onlineOnly →
    outcome.executions = [] ∧ ∃ error, outcome.result = .error error ∧ error.kind = .notRunning

/-- The runtime has left its socket file at the path. -/
def LeftBehind (s : Host) (j : ℕ) : Prop := s.socket = some j ∧ (s.phase j).gone = true

section Errors

theorem mapError_kind {x : Except String R} {error : CommandError}
    (h : x.mapError runtimeError = .error error) : error.kind = .runtime := by
  cases x with
  | error text =>
    simp only [Except.mapError, Except.error.injEq] at h
    rw [← h]
    rfl
  | ok value => simp [Except.mapError] at h

theorem previewConfigImport_kind {lib : Primitives} {p : Parsers} {current : AgentConfig}
    {content : Option String} {password : String} {error : CommandError}
    (h : previewConfigImport lib p current content password = .error error) :
    error.kind = .runtime := by
  unfold previewConfigImport at h
  repeat' split at h
  all_goals cases h
  all_goals rfl

theorem importConfig_kind {lib : Primitives} {p : Parsers} {current : AgentConfig}
    {content : Option String} {password expectedFileHash : String} {error : CommandError}
    (h : importConfig lib p current content password expectedFileHash = .error error) :
    error.kind = .runtime ∨ error.kind = .conflict := by
  unfold importConfig at h
  repeat' split at h
  all_goals cases h
  all_goals simp [runtimeError]

/-- A running agent never answers that it is not running. -/
theorem runtimeExecute_kind (ops : Operations R) (command : Command) {error : CommandError}
    (h : runtimeExecute ops command = .error error) : error.kind ≠ .notRunning := by
  have hmap : ∀ x : Except String R, x.mapError runtimeError = .error error →
      error.kind ≠ .notRunning := fun x hx => by simp [mapError_kind hx]
  cases command with
  | previewConfigImport path password =>
    cases hp : previewConfigImport ops.lib ops.parsers ops.config (ops.readFile path) password with
    | error e =>
      simp only [runtimeExecute,hp,Except.map,Except.error.injEq] at h
      subst h
      simp [previewConfigImport_kind hp]
    | ok preview => simp [runtimeExecute,hp,Except.map] at h
  | importConfig path password expectedFileHash =>
    simp only [runtimeExecute] at h
    split at h
    · rename_i e he
      cases h
      rcases importConfig_kind he with hk | hk <;> simp [hk]
    · exact hmap _ h
  | validateConfig path =>
    simp only [runtimeExecute] at h
    split at h
    · cases h
      simp
    · exact hmap _ h
  | getConfig | getLogs | doctor _ | status => cases h
  | _ => exact hmap _ h

theorem ReadFault.error_kind (fault : ReadFault) : fault.error.kind ≠ .notRunning := by
  cases fault <;> simp [ReadFault.error]

theorem readResponse_kind {wire : Wire} {response : Option (CommandResponse R)}
    (hr : ∀ r ∈ response, ∀ error, r.result = .error error → error.kind ≠ .notRunning)
    {error : CommandError} (h : readResponse wire response = .error error) :
    error.kind ≠ .notRunning := by
  unfold readResponse at h
  split at h
  · cases h
    exact ReadFault.error_kind _
  · cases h
    simp
  · split at h
    · cases h
      simp
    · exact hr _ rfl error h

theorem answer_executions (place : Place) (execute : Command → Except CommandError R)
    (wire : Wire) (command : Command) :
    ((answer place execute wire command).map Prod.fst).getD [] = [] ∨
      ((answer place execute wire command).map Prod.fst).getD [] = [place] := by
  unfold answer
  split
  · exact Or.inr (by simp [handleConnection])
  · exact Or.inl rfl

theorem answer_kind {place : Place} {execute : Command → Except CommandError R} {wire : Wire}
    {command : Command}
    (he : ∀ error, execute command = .error error → error.kind ≠ .notRunning) :
    ∀ r ∈ (answer place execute wire command).map Prod.snd, ∀ error,
      r.result = .error error → error.kind ≠ .notRunning := by
  unfold answer
  split
  · simpa [handleConnection] using he
  · simp

/-- One connection executes the command at most once, and no error of it says that the
agent is not running. -/
theorem exchange_spec (place : Place) (execute : Command → Except CommandError R) (wire : Wire)
    (command : Command) (he : ∀ error, execute command = .error error → error.kind ≠ .notRunning) :
    ((exchange place execute wire command).executions = [] ∨
      (exchange place execute wire command).executions = [place]) ∧
    ∀ error, (exchange place execute wire command).result = .error error →
      error.kind ≠ .notRunning := by
  unfold exchange
  split
  · exact ⟨Or.inl rfl,by rintro error ⟨⟩; simp⟩
  · split
    · exact ⟨Or.inl rfl,by rintro error ⟨⟩; simp⟩
    · split
      · exact ⟨answer_executions place execute wire command,by rintro error ⟨⟩; simp⟩
      · exact ⟨answer_executions place execute wire command,
          fun error h => readResponse_kind (answer_kind he) h⟩

end Errors

section Dispatching

variable {s : Host} {j : ℕ} {fault : Option ConnectFault} {agents : ℕ → Operations R}
variable {offline : Command → Except CommandError R} {wire : Wire} {command : Command}

theorem connect_reachable (fault : Option ConnectFault) (h : Reachable s j) :
    connect s fault = .ok j ∨ ∃ f : ConnectFault, connect s fault = .error f.error := by
  unfold connect
  simp only [h.1,h.2,if_true]
  cases fault with
  | none => exact Or.inl rfl
  | some f => exact Or.inr ⟨f,rfl⟩

theorem not_listening_of_gone {phase : Phase} (h : phase.gone = true) :
    phase.listensIpc = false := by
  cases phase with
  | stopping addr tcp ipc => cases ipc <;> simp_all [Phase.gone,Phase.listensIpc]
  | _ => simp_all [Phase.gone,Phase.listensIpc]

/-- A client that is connected, or refused by something other than a missing path, is
never told that the agent is not running. -/
theorem online_spec (h : Reachable s j) :
    ((localClientExecutor s agents fault wire command).executions = [] ∨
      (localClientExecutor s agents fault wire command).executions = [.agent j]) ∧
    ∀ error, (localClientExecutor s agents fault wire command).result = .error error →
      error.kind ≠ .notRunning := by
  unfold localClientExecutor
  rcases connect_reachable fault h with hc | ⟨f,hc⟩
  · rw [hc]
    exact exchange_spec _ _ _ _ (fun error he => runtimeExecute_kind (agents j) command he)
  · rw [hc]
    refine ⟨Or.inl rfl,?_⟩
    rintro error ⟨⟩
    cases f <;> simp [ConnectFault.error,connectError]

theorem execute_online {online : Executor R} {other : Executor R}
    (hk : ∀ error, (online command).result = .error error → error.kind ≠ .notRunning)
    (hp : command.policy ≠ .offlineAllowed) :
    CommandService.execute ⟨some online,other⟩ command = online command := by
  unfold CommandService.execute
  cases hpolicy : command.policy with
  | offlineAllowed => exact absurd hpolicy hp
  | onlineOnly => rfl
  | onlinePreferred =>
    cases hr : (online command).result with
    | ok value => simp [hr]
    | error error => simp [hr,hk error hr]

theorem dispatched_offline (hp : command.policy = .offlineAllowed) :
    Dispatched s command (dispatch s agents offline fault wire command) where
  offline _ := by simp [dispatch,CommandService.execute,hp,offlineExecutor]
  online _ _ hn := absurd hp hn
  preferred _ hn := by simp [hp] at hn
  only _ hn := by simp [hp] at hn

theorem dispatched_reachable (h : Reachable s j) (hp : command.policy ≠ .offlineAllowed) :
    Dispatched s command (dispatch s agents offline fault wire command) where
  offline hn := absurd hn hp
  online k hk _ := by
    obtain rfl : j = k := Option.some.inj (h.1.symm.trans hk.1)
    rw [dispatch,execute_online (online_spec h).2 hp]
    exact (online_spec h).1
  preferred hn := absurd h (hn j)
  only hn := absurd h (hn j)

theorem dispatched_missing (h : s.socket = none) (hp : command.policy ≠ .offlineAllowed) :
    Dispatched s command (dispatch s agents offline fault wire command) where
  offline hn := absurd hn hp
  online k hk := by
    rw [hk.1] at h
    cases h
  preferred _ hn := by
    simp [dispatch,CommandService.execute,hn,localClientExecutor,connect,h,connectError,
      offlineExecutor]
  only _ hn := by
    simp [dispatch,CommandService.execute,hn,localClientExecutor,connect,h,connectError]

theorem not_dispatched (h : LeftBehind s j) (hp : command.policy ≠ .offlineAllowed) :
    ¬Dispatched s command (dispatch s agents offline fault wire command) := by
  intro hd
  have hsilent := not_listening_of_gone h.2
  have hnone : ∀ k, ¬Reachable s k := by
    rintro k ⟨hk,hl⟩
    obtain rfl := Option.some.inj (h.1.symm.trans hk)
    rw [hsilent] at hl
    cases hl
  have honline : localClientExecutor s agents fault wire command =
      ⟨[],.error ⟨.runtime,"Connection refused (os error 111)"⟩⟩ := by
    simp [localClientExecutor,connect,h.1,hsilent,connectError]
  have hrun : dispatch s agents offline fault wire command =
      ⟨[],.error ⟨.runtime,"Connection refused (os error 111)"⟩⟩ := by
    rw [dispatch,execute_online (by simp [honline]) hp,honline]
  rw [hrun] at hd
  cases hpolicy : command.policy with
  | offlineAllowed => exact hp hpolicy
  | onlinePreferred => simpa using hd.preferred hnone hpolicy
  | onlineOnly =>
    obtain ⟨-,error,he,hk⟩ := hd.only hnone hpolicy
    cases he
    simp at hk

end Dispatching

/-- After every history of the agents a command is dispatched as its policy asks for
exactly when it may run offline or no runtime has left its socket file behind. -/
theorem dispatched_iff (savedPort : UInt16) (ls : List Label) (s : Host)
    (hr : run step ls (initial savedPort) = some s) (agents : ℕ → Operations R)
    (offline : Command → Except CommandError R) (fault : Option ConnectFault) (wire : Wire)
    (command : Command) :
    Dispatched s command (dispatch s agents offline fault wire command) ↔
      command.policy = .offlineAllowed ∨ ∀ j, ¬LeftBehind s j := by
  by_cases hp : command.policy = .offlineAllowed
  · exact ⟨fun _ => Or.inl hp,fun _ => dispatched_offline hp⟩
  · refine ⟨fun hd => Or.inr (fun j hj => not_dispatched hj hp hd),fun h => ?_⟩
    have hnone := h.resolve_left hp
    cases hs : s.socket with
    | none => exact dispatched_missing hs hp
    | some j =>
      have hlistens := (run_traced hr j hs).resolve_right (fun hg => hnone j ⟨hs,hg⟩)
      exact dispatched_reachable ⟨hs,hlistens⟩ hp

/-- An agent with an empty history; results are their names. -/
def emptyOperations : Operations String where
  lib := vectorLib
  parsers := ConfigStore.noParsers
  config := AgentConfig.default
  configPath := some "config.json"
  readFile := fun _ => none
  configResult := fun _ => "config"
  previewResult := fun _ => "import_preview"
  logs := "logs"
  status := "status"
  doctor := fun _ => "doctor"
  saveConfig := fun _ => .ok "config"
  listPrinters := .ok "printers"
  listPapers := fun _ => .ok "papers"
  recentJobs := .ok "task_history"
  eventsForJob := fun _ => .ok "task_history_events"
  clearTaskHistory := .ok "empty"
  exportConfig := fun _ _ _ => .ok "empty"
  testPrint := fun _ => .ok "empty"
  loadConfig := fun _ => .ok "empty"
  writeDiagnosticsBundle := fun _ _ => .ok "diagnostics"

def clearWire : Wire := ⟨"request-1",.ok 120,.ok (),true,.ok ()⟩

def answerCommand (s : Host) : Command → Outcome String :=
  dispatch s (fun _ => emptyOperations) (runtimeExecute emptyOperations) none clearWire

theorem stopped_runs :
    (run step (startSteps 0 17890++stopSteps 0) (initial 17890)).isSome = true := by
  decide +kernel

def stoppedHost : Host :=
  (run step (startSteps 0 17890++stopSteps 0) (initial 17890)).get stopped_runs

theorem dispatched_after_shutdown :
    Dispatched stoppedHost .clearTaskHistory (answerCommand stoppedHost .clearTaskHistory) ∧
      (answerCommand stoppedHost .clearTaskHistory).executions = [.offline] := by
  have hsocket : stoppedHost.socket = none := by decide +kernel
  refine ⟨(dispatched_iff 17890 (startSteps 0 17890++stopSteps 0) stoppedHost
    (Option.some_get stopped_runs).symm (fun _ => emptyOperations)
    (runtimeExecute emptyOperations) none clearWire .clearTaskHistory).mpr (Or.inr ?_),rfl⟩
  rintro j ⟨hj,-⟩
  rw [hsocket] at hj
  cases hj

theorem crashed_runs :
    (run step (startSteps 0 17890++[.crash 0]) (initial 17890)).isSome = true := by
  decide +kernel

def crashedHost : Host :=
  (run step (startSteps 0 17890++[.crash 0]) (initial 17890)).get crashed_runs

/-- After a crash nobody listens, yet no command reaches the offline executor and none
is told that the agent is not running. -/
theorem crashed_agent_blocks_fallback :
    (∀ j, ¬Reachable crashedHost j) ∧
      (answerCommand crashedHost .clearTaskHistory).executions = [] ∧
      (answerCommand crashedHost .status).result =
        .error ⟨.runtime,"Connection refused (os error 111)"⟩ ∧
      ¬Dispatched crashedHost .clearTaskHistory (answerCommand crashedHost .clearTaskHistory) ∧
      ¬Dispatched crashedHost .status (answerCommand crashedHost .status) := by
  have hnone : ∀ j, ¬Reachable crashedHost j := by
    rintro j ⟨hj,hl⟩
    have hsocket : crashedHost.socket = some 0 := by decide +kernel
    obtain rfl := Option.some.inj (hsocket.symm.trans hj)
    revert hl
    decide +kernel
  refine ⟨hnone,rfl,rfl,fun hd => ?_,fun hd => ?_⟩
  · cases hd.preferred hnone rfl
  · obtain ⟨-,error,he,hk⟩ := hd.only hnone rfl
    cases he
    cases hk

end YinShu.CommandDispatch
