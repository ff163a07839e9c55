import YinShu.ConfigImport

/-!
# The range of the configured port

The port is written by the commands of the command line, by the desktop and by
an import. The first two compare a new port with the range of service ports;
a merge only refuses port zero. Any number of operations may run side by side,
each between its read and its save.
-/

set_option autoImplicit false

namespace YinShu.ServicePort
open YinShu.Protocol YinShu.Settings YinShu.ConfigStore YinShu.ConfigCommands YinShu.LabelledRun
open YinShu.ConfigTransfer YinShu.ConfigImport

def InRange (port : UInt16) : Prop := minServicePort ≤ port ∧ port ≤ maxServicePort

instance inRangeDecidable (port : UInt16) : Decidable (InRange port) :=
  inferInstanceAs (Decidable (minServicePort ≤ port ∧ port ≤ maxServicePort))

def checkServicePortAvailable (portFree : UInt16 → Bool) (port : UInt16) : Except String Unit :=
  if ¬InRange port then
    .error ("本地端口必须在 " ++ toString minServicePort ++ " 到 " ++ toString maxServicePort ++
      " 之间")
  else if portFree port then .ok ()
  else .error ("本地端口 " ++ toString port ++ " 已被占用，请换一个端口")

/-- What a user can do to the port. The desktop sends a whole configuration; its save
also carries what applying the autostart setting gave. -/
inductive Operation where
  | command (command : ConfigCommand)
  | saveConfig (config : AgentConfig) (autostart : Except String Unit)

variable (p : Parsers)

/-- The configuration that an operation hands to `save_config`, from the one it read. -/
def plan (portFree : UInt16 → Bool) (current : AgentConfig) :
    Operation → Except String AgentConfig
  | .command command => edit p portFree current command
  | .saveConfig config autostart =>
    match (if config.service.port ≠ current.service.port then
        checkServicePortAvailable portFree config.service.port else .ok ()) with
    | .error error => .error error
    | .ok _ =>
      match autostart with
      | .error error => .error error
      | .ok _ => .ok config

/-- The configuration in use and what the operations under way are about to save. -/
structure Desk where
  memory : AgentConfig
  held : ℕ → Option AgentConfig := fun _ => none

inductive Label where
  | read (i : ℕ) (portFree : UInt16 → Bool) (operation : Operation)
  | save (i : ℕ) (written : Bool)

def Desk.setHeld (s : Desk) (i : ℕ) (next : Option AgentConfig) : Desk :=
  { s with held := Function.update s.held i next }

def step (s : Desk) : Label → Option Desk
  | .read i portFree operation =>
    if (s.held i).isSome then none
    else some (s.setHeld i (plan p portFree s.memory operation).toOption)
  | .save i written =>
    match s.held i with
    | none => none
    | some next =>
      match checkConfig p next,written with
      | .ok saved,true => some (Desk.setHeld { s with memory := saved } i none)
      | _,_ => some (s.setHeld i none)

/-- A payload that names a port names a service port. -/
def NamesServicePort : Label → Prop
  | .read _ _ (.command (.importConfig (.ok payload))) =>
    ∀ port ∈ payload.config.port, InRange port
  | _ => True

def Inv (s : Desk) : Prop :=
  InRange s.memory.service.port ∧ ∀ i, ∀ next ∈ s.held i, InRange next.service.port

section Steps

variable {p} {portFree : UInt16 → Bool} {current next : AgentConfig} {s t : Desk}

theorem edit_port_inRange {command : ConfigCommand} (hc : InRange current.service.port)
    (hi : ∀ payload, command = .importConfig (.ok payload) →
      ∀ port ∈ payload.config.port, InRange port)
    (h : edit p portFree current command = .ok next) : InRange next.service.port := by
  obtain ⟨hpassed,rfl⟩ := edit_ok h
  cases command with
  | serviceSetPort port => exact hpassed
  | importConfig source =>
    cases source with
    | error error => exact hc
    | ok payload =>
      cases hp : payload.config.port with
      | none => simpa [edited,AgentConfig.normalized,hp] using hc
      | some port => simpa [edited,AgentConfig.normalized,hp] using hi payload rfl port hp
  | _ => exact hc

/-- An import of a file is the command on the payload that the file holds. -/
theorem importConfig_edit {lib : Primitives} {content : Option String}
    {password expectedFileHash : String}
    (h : importConfig lib p current content password expectedFileHash = .ok next) :
    ∃ text payload, content = some text ∧ carried lib text password = .ok payload ∧
      edit p portFree current (.importConfig (.ok payload)) = .ok next := by
  obtain ⟨text,payload,htext,hcarried,-,hmerge⟩ := importConfig_ok h
  exact ⟨text,payload,htext,hcarried,hmerge⟩

theorem saveConfig_port_inRange {config : AgentConfig} {autostart : Except String Unit}
    (hc : InRange current.service.port)
    (h : plan p portFree current (.saveConfig config autostart) = .ok next) :
    InRange next.service.port := by
  simp only [plan] at h
  split at h
  · cases h
  · rename_i hk
    split at h
    · cases h
    · obtain rfl := Except.ok.inj h
      by_cases hp : config.service.port = current.service.port
      · rw [hp]
        exact hc
      · rw [if_pos hp,checkServicePortAvailable] at hk
        split at hk
        · cases hk
        · rename_i hr
          exact not_not.mp hr

theorem plan_port_inRange {i : ℕ} {operation : Operation} (hc : InRange current.service.port)
    (hn : NamesServicePort (.read i portFree operation))
    (h : plan p portFree current operation = .ok next) : InRange next.service.port := by
  cases operation with
  | command command =>
    refine edit_port_inRange hc ?_ h
    rintro payload rfl
    exact hn
  | saveConfig config autostart => exact saveConfig_port_inRange hc h

theorem Inv.setHeld (h : Inv s) (i : ℕ) {next : Option AgentConfig}
    (hn : ∀ config ∈ next, InRange config.service.port) : Inv (s.setHeld i next) := by
  refine ⟨h.1,fun j config hj => ?_⟩
  by_cases hji : j = i
  · subst hji
    exact hn config (by simpa [Desk.setHeld] using hj)
  · exact h.2 j config (by simpa [Desk.setHeld,hji] using hj)

theorem port_step (s : Desk) (l : Label) (t : Desk) (h : Inv s) (hn : NamesServicePort l)
    (hs : step p s l = some t) : Inv t := by
  cases l with
  | read i portFree operation =>
    simp only [step, Option.ite_none_left_eq_some, Option.some.injEq] at hs
    obtain ⟨-,rfl⟩ := hs
    refine h.setHeld i (fun config hc => ?_)
    cases hp : plan p portFree s.memory operation with
    | error error => simp [hp,Except.toOption] at hc
    | ok next =>
      obtain rfl : next = config := by simpa [hp,Except.toOption] using hc
      exact plan_port_inRange h.1 hn hp
  | save i written =>
    cases hh : s.held i with
    | none => simp [step,hh] at hs
    | some next =>
      simp only [step,hh] at hs
      split at hs
      · rename_i saved hc
        cases hs
        obtain rfl := checkConfig_normalized hc
        have hm : Inv { s with memory := next.normalized } := ⟨h.2 i next hh,h.2⟩
        exact hm.setHeld i (by simp)
      · cases hs
        exact h.setHeld i (by simp)

end Steps

/-- The configured port stays a service port in every run whose imports name no other. -/
theorem configured_port_inRange (base : AgentConfig) (ls : List Label) (s : Desk)
    (h0 : InRange base.service.port) (hn : ∀ l ∈ ls, NamesServicePort l)
    (hr : run (step p) ls { memory := base } = some s) : InRange s.memory.service.port := by
  exact (run_invariant_of_mem (step p) NamesServicePort Inv port_step ls _ s ⟨h0,by simp⟩ hn hr).1

def lowPortPayload : ConfigTransferPayload :=
  ⟨"yinshu-config",1,{ service := some { port := some 80 } }⟩

def lowPortPlaintext : Bytes := [
  123,34,102,111,114,109,97,116,34,58,34,121,105,110,115,104,117,45,99,111,110,102,105,103,34,
  44,34,118,101,114,115,105,111,110,34,58,49,44,34,99,111,110,102,105,103,34,58,123,34,115,101,
  114,118,105,99,101,34,58,123,34,112,111,114,116,34,58,56,48,125,125,125]

def lowPortCiphertext : Bytes := [
  57,53,247,190,70,46,131,190,155,191,125,240,177,98,128,187,217,54,100,0,181,230,67,244,39,
  251,35,181,30,22,254,22,13,240,219,88,35,126,81,214,80,237,177,220,140,54,203,102,99,160,45,
  60,117,112,76,149,11,192,165,45,235,40,153,54,194,141,121,86,192,243,213,43,203,150,17,246,
  221,253,223,69,218,37,17,88,172,30,211]

def lowPortText : String :=
  "OTX3vkYug76bv33wsWKAu9k2ZAC15kP0J/sjtR4W/hYN8NtYI35R1lDtsdyMNstmY6AtPHVwTJULwKUt6yiZ" ++
  "NsKNeVbA89Ury5YR9t3930XaJRFYrB7T"

/-- The libraries on a file that was exported by hand with port 80. -/
def lowPortLib : Primitives := { vectorLib with
  base64Decode := fun text =>
    if text = lowPortText then some lowPortCiphertext else vectorLib.base64Decode text
  decrypt := fun key nonce ciphertext =>
    if key = vectorKey ∧ nonce = vectorNonce ∧ ciphertext = lowPortCiphertext then
      some lowPortPlaintext else none
  payloadFromSlice := fun bytes => if bytes = lowPortPlaintext then some lowPortPayload else none }

def lowPortFile : EncryptedConfigFile :=
  { envelope vectorLib vectorSalt vectorNonce vectorCiphertext with payload := lowPortText }

/-- The first-run configuration is moved to another port and the desktop saves it again. -/
def portMoves : List Label :=
  [.read 0 (fun _ => true) (.command (.serviceSetPort 20000)),.save 0 true,
    .read 0 (fun _ => true) (.command (.importConfig (.ok vectorPayload))),.save 0 true,
    .read 1 (fun _ => true) (.saveConfig (portConfig 19090) (.ok ())),.save 1 true]

theorem portMoves_runs :
    (run (step noParsers) portMoves { memory := AgentConfig.default }).isSome = true := by
  decide +kernel

theorem configured_port_moves : ((run (step noParsers) portMoves
    { memory := AgentConfig.default }).get portMoves_runs).memory = portConfig 19090 ∧
    InRange ((run (step noParsers) portMoves
      { memory := AgentConfig.default }).get portMoves_runs).memory.service.port :=
  ⟨by decide +kernel,configured_port_inRange noParsers AgentConfig.default portMoves _ (by decide)
    (by simp [portMoves,NamesServicePort,vectorPayload,PartialTransferConfig.port,InRange,
      minServicePort,maxServicePort]) (Option.some_get portMoves_runs).symm⟩

def importLowPort : List Label :=
  [.read 0 (fun _ => true) (.command (.importConfig (.ok lowPortPayload))),.save 0 true]

theorem importLowPort_runs :
    (run (step noParsers) importLowPort { memory := AgentConfig.default }).isSome = true := by
  decide +kernel

/-- A file that decrypts moves the agent to a privileged port. -/
theorem imported_port_out_of_range :
    decryptPayload lowPortLib lowPortFile "test-password" = .ok lowPortPayload ∧
      InRange AgentConfig.default.service.port ∧
      ((run (step noParsers) importLowPort { memory := AgentConfig.default }).get
        importLowPort_runs).memory = portConfig 80 ∧
      ¬InRange ((run (step noParsers) importLowPort { memory := AgentConfig.default }).get
        importLowPort_runs).memory.service.port := by
  decide +kernel

end YinShu.ServicePort
