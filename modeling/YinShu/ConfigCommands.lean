import YinShu.ConfigStore
import YinShu.ReadModifyWrite

/-!
# Commands that change the configuration

Every such command reads the whole configuration, edits its own part of the
copy and saves the copy as a whole; nothing checks that the configuration is
still the one that was read. Two commands on different fields therefore keep
each other's effect only when one reads after the other has saved.
-/

set_option autoImplicit false

namespace YinShu.ConfigCommands
open YinShu.TextScan YinShu.Protocol YinShu.Settings YinShu.ConfigStore YinShu.LabelledRun
open YinShu.ReadModifyWrite

structure PartialSecurityTransferConfig where
  allowedOrigins : Option (List String) := none
  allowedIps : Option (List String) := none
  deriving DecidableEq, Repr

structure PartialServiceTransferConfig where
  port : Option UInt16 := none
  deriving DecidableEq, Repr

structure PartialTransferConfig where
  service : Option PartialServiceTransferConfig := none
  security : Option PartialSecurityTransferConfig := none
  deriving DecidableEq, Repr

structure ConfigTransferPayload where
  format : String
  version : UInt16
  config : PartialTransferConfig
  deriving DecidableEq, Repr

def payloadFormat : String := "yinshu-config"
def transferVersion : UInt16 := 1

def validatePayload (payload : ConfigTransferPayload) : Except String Unit :=
  if payload.format ≠ payloadFormat ∨ payload.version ≠ transferVersion then
    .error "不是有效的 YinShu 配置文件"
  else .ok ()

def PartialTransferConfig.port (config : PartialTransferConfig) : Option UInt16 :=
  config.service.bind PartialServiceTransferConfig.port

def PartialTransferConfig.allowedOrigins (config : PartialTransferConfig) :
    Option (List String) :=
  config.security.bind PartialSecurityTransferConfig.allowedOrigins

def PartialTransferConfig.allowedIps (config : PartialTransferConfig) : Option (List String) :=
  config.security.bind PartialSecurityTransferConfig.allowedIps

variable (p : Parsers)

def mergePort (payload : PartialTransferConfig) (next : AgentConfig) : Except String AgentConfig :=
  match payload.port with
  | none => .ok next
  | some port =>
    if port = 0 then .error "本地端口必须大于 0"
    else .ok { next with service := { next.service with port := port } }

def mergeOrigins (payload : PartialTransferConfig) (next : AgentConfig) :
    Except String AgentConfig :=
  match payload.allowedOrigins with
  | none => .ok next
  | some origins =>
    match checkAll (fun origin =>
        (validateOrigin p origin).mapError (fun _ => "Origin 无效: " ++ origin)) origins with
    | .error error => .error error
    | .ok _ => .ok { next with security := { next.security with allowedOrigins := origins } }

def mergeIps (payload : PartialTransferConfig) (next : AgentConfig) : Except String AgentConfig :=
  match payload.allowedIps with
  | none => .ok next
  | some ips =>
    match checkAll (validateAllowedIpEntry p) ips with
    | .error error => .error error
    | .ok _ => .ok { next with security := { next.security with allowedIps := ips } }

def mergePayload (current : AgentConfig) (payload : ConfigTransferPayload) :
    Except String AgentConfig :=
  match validatePayload payload with
  | .error error => .error error
  | .ok _ =>
    match mergePort payload.config current with
    | .error error => .error error
    | .ok next =>
      match mergeOrigins p payload.config next with
      | .error error => .error error
      | .ok next =>
        match mergeIps p payload.config next with
        | .error error => .error error
        | .ok next => .ok next.normalized

/-- The commands; an import carries what reading, hashing and decrypting its file gave. -/
inductive ConfigCommand where
  | originAdd (origin : String)
  | originDelete (origin : String)
  | ipAdd (entry : String)
  | ipDelete (entry : String)
  | printerSetDefault (printerName : String)
  | paperSet (width height : ℚ)
  | serviceSetPort (port : UInt16)
  | importConfig (source : Except String ConfigTransferPayload)

/-- What a command saves after it has read the given configuration. -/
def edit (portFree : UInt16 → Bool) (config : AgentConfig) :
    ConfigCommand → Except String AgentConfig
  | .originAdd origin =>
    match validateOrigin p origin with
    | .error error => .error error.message
    | .ok _ =>
      if origin ∈ config.security.allowedOrigins then .ok config
      else .ok { config with security := { config.security with
        allowedOrigins := config.security.allowedOrigins++[origin] } }
  | .originDelete origin => .ok { config with security := { config.security with
      allowedOrigins := config.security.allowedOrigins.filter (fun item => item ≠ origin) } }
  | .ipAdd entry =>
    match validateAllowedIpEntry p entry with
    | .error error => .error error
    | .ok _ => .ok { config with security := { config.security with
        allowedIps := normalizeAllowedIps (config.security.allowedIps++[entry]) } }
  | .ipDelete entry =>
    if trim entry = requiredLoopbackIp then
      .error (requiredLoopbackIp ++ " is required and cannot be deleted")
    else .ok { config with security := { config.security with
      allowedIps := normalizeAllowedIps
        (config.security.allowedIps.filter (fun item => item ≠ trim entry)) } }
  | .printerSetDefault printerName => .ok { config with printing := { config.printing with
      defaultPrinter := some printerName } }
  | .paperSet width height =>
    if width ≤ 0 ∨ height ≤ 0 then .error "paper dimensions must be positive finite numbers"
    else .ok { config with printing := { config.printing with
      defaultPaper := some ⟨width,height⟩ } }
  | .serviceSetPort port =>
    if port < minServicePort ∨ maxServicePort < port then
      .error ("service port must be between " ++ toString minServicePort ++ " and " ++
        toString maxServicePort)
    else if port ≠ config.service.port ∧ portFree port = false then
      .error ("service port " ++ toString port ++ " is already occupied")
    else .ok { config with service := { config.service with port := port } }
  | .importConfig source =>
    match source with
    | .error error => .error error
    | .ok payload => mergePayload p config payload

inductive Field where
  | port | origins | ips | printer | paper
  deriving DecidableEq, Repr

def payloadFields (payload : PartialTransferConfig) : List Field :=
  (if payload.port.isSome then [.port] else []) ++
    (if payload.allowedOrigins.isSome then [.origins] else []) ++
    (if payload.allowedIps.isSome then [.ips] else [])

/-- The fields a command is there to change. -/
def fields : ConfigCommand → List Field
  | .originAdd _ | .originDelete _ => [.origins]
  | .ipAdd _ | .ipDelete _ => [.ips]
  | .printerSetDefault _ => [.printer]
  | .paperSet _ _ => [.paper]
  | .serviceSetPort _ => [.port]
  | .importConfig (.ok payload) => payloadFields payload.config
  | .importConfig (.error _) => []

/-- The effect of a command, as a property of a configuration. -/
def Effect : ConfigCommand → AgentConfig → Prop
  | .originAdd origin, config => origin ∈ config.security.allowedOrigins
  | .originDelete origin, config => origin ∉ config.security.allowedOrigins
  | .ipAdd entry, config => trim entry ∈ config.security.allowedIps
  | .ipDelete entry, config => trim entry ∉ config.security.allowedIps
  | .printerSetDefault printerName, config => config.printing.defaultPrinter = some printerName
  | .paperSet width height, config => config.printing.defaultPaper = some ⟨width,height⟩
  | .serviceSetPort port, config => config.service.port = port
  | .importConfig (.ok payload), config =>
    (∀ port ∈ payload.config.port, config.service.port = port) ∧
      (∀ origins ∈ payload.config.allowedOrigins, config.security.allowedOrigins = origins) ∧
      ∀ ips ∈ payload.config.allowedIps, config.security.allowedIps = normalizeAllowedIps ips
  | .importConfig (.error _), _ => True

def SameField (c d : AgentConfig) : Field → Prop
  | .port => c.service.port = d.service.port
  | .origins => c.security.allowedOrigins = d.security.allowedOrigins
  | .ips => c.security.allowedIps = d.security.allowedIps
  | .printer => c.printing.defaultPrinter = d.printing.defaultPrinter
  | .paper => c.printing.defaultPaper = d.printing.defaultPaper

/-- A command as a client of the shared configuration: read and edit, then save.
The save fails on an invalid configuration and when the file cannot be written. -/
def client (portFree : UInt16 → Bool) (written : Bool) (command : ConfigCommand) :
    Client AgentConfig where
  plan config := (edit p portFree config command).toOption
  commit next := if written then (checkConfig p next).toOption else none

section Edits

variable {p} {portFree : UInt16 → Bool} {config next saved : AgentConfig}

theorem mergePort_ok {payload : PartialTransferConfig} (h : mergePort payload config = .ok next) :
    next = { config with service := { config.service with
      port := payload.port.getD config.service.port } } := by
  unfold mergePort at h
  split at h
  · rename_i hp
    cases h
    simp [hp]
  · rename_i port hp
    split at h
    · cases h
    · cases h
      simp [hp]

theorem mergeOrigins_ok {payload : PartialTransferConfig}
    (h : mergeOrigins p payload config = .ok next) :
    next = { config with security := { config.security with
      allowedOrigins := payload.allowedOrigins.getD config.security.allowedOrigins } } := by
  unfold mergeOrigins at h
  split at h
  · rename_i hp
    cases h
    simp [hp]
  · rename_i origins hp
    split at h
    · cases h
    · cases h
      simp [hp]

theorem mergeIps_ok {payload : PartialTransferConfig} (h : mergeIps p payload config = .ok next) :
    next = { config with security := { config.security with
      allowedIps := payload.allowedIps.getD config.security.allowedIps } } := by
  unfold mergeIps at h
  split at h
  · rename_i hp
    cases h
    simp [hp]
  · rename_i ips hp
    split at h
    · cases h
    · cases h
      simp [hp]

/-- A merge replaces the fields of the payload in the configuration that was read. -/
theorem mergePayload_ok {payload : ConfigTransferPayload}
    (h : mergePayload p config payload = .ok next) :
    next = AgentConfig.normalized { config with
      service := { config.service with port := payload.config.port.getD config.service.port }
      security := ⟨payload.config.allowedOrigins.getD config.security.allowedOrigins,
        payload.config.allowedIps.getD config.security.allowedIps⟩ } := by
  unfold mergePayload at h
  split at h
  · cases h
  · split at h
    · cases h
    · rename_i c hc
      split at h
      · cases h
      · rename_i d hd
        split at h
        · cases h
        · rename_i e he
          cases h
          rw [mergeIps_ok he,mergeOrigins_ok hd,mergePort_ok hc]

theorem trim_of_mem (hv : config.normalized = config) {item : String}
    (hi : item ∈ config.security.allowedIps) : trim item = item := by
  have hn : normalizeAllowedIps config.security.allowedIps = config.security.allowedIps :=
    congrArg (fun c : AgentConfig => c.security.allowedIps) hv
  rw [← hn,mem_normalizeAllowedIps] at hi
  rcases hi with rfl | ⟨e,-,rfl,-⟩
  · decide
  · exact trim_idempotent e

theorem validateAllowedIpEntry_nonblank {entry : String}
    (h : validateAllowedIpEntry p entry = .ok ()) : trim entry ≠ "" := by
  intro hb
  simp [validateAllowedIpEntry,hb] at h

/-- What a command makes of a configuration once its checks have passed. -/
def edited (config : AgentConfig) : ConfigCommand → AgentConfig
  | .originAdd origin => { config with security := { config.security with
      allowedOrigins := if origin ∈ config.security.allowedOrigins
        then config.security.allowedOrigins else config.security.allowedOrigins++[origin] } }
  | .originDelete origin => { config with security := { config.security with
      allowedOrigins := config.security.allowedOrigins.filter (fun item => item ≠ origin) } }
  | .ipAdd entry => { config with security := { config.security with
      allowedIps := normalizeAllowedIps (config.security.allowedIps++[entry]) } }
  | .ipDelete entry => { config with security := { config.security with
      allowedIps := normalizeAllowedIps
        (config.security.allowedIps.filter (fun item => item ≠ trim entry)) } }
  | .printerSetDefault printerName => { config with printing := { config.printing with
      defaultPrinter := some printerName } }
  | .paperSet width height => { config with printing := { config.printing with
      defaultPaper := some ⟨width,height⟩ } }
  | .serviceSetPort port => { config with service := { config.service with port := port } }
  | .importConfig (.ok payload) => AgentConfig.normalized { config with
      service := { config.service with port := payload.config.port.getD config.service.port }
      security := ⟨payload.config.allowedOrigins.getD config.security.allowedOrigins,
        payload.config.allowedIps.getD config.security.allowedIps⟩ }
  | .importConfig (.error _) => config

/-- The checks of a command that its effect and the range of the port rest on. -/
def Passed (p : Parsers) : ConfigCommand → Prop
  | .ipAdd entry => validateAllowedIpEntry p entry = .ok ()
  | .ipDelete entry => trim entry ≠ requiredLoopbackIp
  | .serviceSetPort port => minServicePort ≤ port ∧ port ≤ maxServicePort
  | _ => True

theorem edit_ok {command : ConfigCommand} (h : edit p portFree config command = .ok next) :
    Passed p command ∧ next = edited config command := by
  cases command with
  | originAdd origin =>
    simp only [edit] at h
    split at h
    · cases h
    · split at h
      · case isTrue hm =>
        cases h
        exact ⟨trivial,by simp [edited,hm]⟩
      · case isFalse hm =>
        cases h
        exact ⟨trivial,by simp [edited,hm]⟩
  | originDelete origin | printerSetDefault printerName =>
    cases h
    exact ⟨trivial,rfl⟩
  | ipAdd entry =>
    simp only [edit] at h
    split at h
    · cases h
    · rename_i hok
      cases h
      exact ⟨hok,rfl⟩
  | ipDelete entry =>
    simp only [edit] at h
    split at h
    · cases h
    · rename_i hreq
      cases h
      exact ⟨hreq,rfl⟩
  | paperSet width height =>
    simp only [edit] at h
    split at h <;> cases h
    exact ⟨trivial,rfl⟩
  | serviceSetPort port =>
    simp only [edit] at h
    split at h
    · cases h
    · rename_i hr
      obtain ⟨hlow,hhigh⟩ := not_or.mp hr
      split at h <;> cases h
      exact ⟨⟨UInt16.not_lt.mp hlow,UInt16.not_lt.mp hhigh⟩,rfl⟩
  | importConfig source =>
    cases source with
    | error error => cases h
    | ok payload => exact ⟨trivial,mergePayload_ok h⟩

/-- A saved edit differs from what was read in the command's own fields only. -/
theorem edit_frame (command : ConfigCommand) (hv : config.normalized = config)
    (h : edit p portFree config command = .ok next) (f : Field) (hf : f ∉ fields command) :
    SameField next.normalized config f := by
  have hips : normalizeAllowedIps config.security.allowedIps = config.security.allowedIps :=
    congrArg (fun c : AgentConfig => c.security.allowedIps) hv
  obtain ⟨-,rfl⟩ := edit_ok h
  cases command with
  | importConfig source =>
    cases source with
    | error error => cases h
    | ok payload =>
      rw [edited,normalized_idempotent]
      cases f <;> simp_all [SameField,fields,payloadFields,AgentConfig.normalized]
  | _ => cases f <;> simp_all [SameField,fields,edited,AgentConfig.normalized]

theorem edit_effect (command : ConfigCommand) (hv : config.normalized = config)
    (h : edit p portFree config command = .ok next) : Effect command next.normalized := by
  obtain ⟨hpassed,rfl⟩ := edit_ok h
  cases command with
  | originAdd origin =>
    by_cases hm : origin ∈ config.security.allowedOrigins
    · simp [Effect,edited,AgentConfig.normalized,hm]
    · simp [Effect,edited,AgentConfig.normalized,hm]
  | originDelete origin => simp [Effect,edited,AgentConfig.normalized]
  | ipAdd entry =>
    simp only [Effect,edited,AgentConfig.normalized,normalizeAllowedIps_idempotent]
    exact (mem_normalizeAllowedIps _ _).mpr
      (Or.inr ⟨entry,by simp,rfl,validateAllowedIpEntry_nonblank hpassed⟩)
  | ipDelete entry =>
    simp only [Effect,edited,AgentConfig.normalized,normalizeAllowedIps_idempotent]
    intro hm
    rcases (mem_normalizeAllowedIps _ _).mp hm with hr | ⟨item,hi,ht,-⟩
    · exact hpassed hr
    · obtain ⟨hi,hne⟩ := List.mem_filter.mp hi
      rw [trim_of_mem hv hi] at ht
      simp [ht] at hne
  | printerSetDefault printerName => rfl
  | paperSet width height => rfl
  | serviceSetPort port => rfl
  | importConfig source =>
    cases source with
    | error error => cases h
    | ok payload =>
      rw [edited,normalized_idempotent]
      refine ⟨fun port hp => ?_,fun origins ho => ?_,fun ips hi => ?_⟩
      · simp [AgentConfig.normalized,Option.mem_def.mp hp]
      · simp [AgentConfig.normalized,Option.mem_def.mp ho]
      · simp [AgentConfig.normalized,Option.mem_def.mp hi]

/-- An effect depends on the command's own fields only. -/
theorem effect_congr (command : ConfigCommand) {c d : AgentConfig}
    (h : ∀ f ∈ fields command, SameField c d f) : Effect command c ↔ Effect command d := by
  cases command with
  | importConfig source =>
    cases source with
    | error error => rfl
    | ok payload =>
      simp only [fields,payloadFields,List.mem_append] at h
      refine and_congr ?_ (and_congr ?_ ?_)
      · cases hp : payload.config.port with
        | none => simp
        | some port => simp [show c.service.port = d.service.port from h .port (by simp [hp])]
      · cases ho : payload.config.allowedOrigins with
        | none => simp
        | some origins =>
          simp [show c.security.allowedOrigins = d.security.allowedOrigins from
            h .origins (by simp [ho])]
      · cases hi : payload.config.allowedIps with
        | none => simp
        | some ips =>
          simp [show c.security.allowedIps = d.security.allowedIps from h .ips (by simp [hi])]
  | _ => simp_all [fields,Effect,SameField]

theorem client_spec {written : Bool} {command : ConfigCommand}
    (hp : (client p portFree written command).plan config = some next)
    (hc : (client p portFree written command).commit next = some saved) :
    edit p portFree config command = .ok next ∧ saved = next.normalized := by
  constructor
  · change (edit p portFree config command).toOption = some next at hp
    cases h : edit p portFree config command with
    | error error => simp [h,Except.toOption] at hp
    | ok value => simpa [h,Except.toOption] using hp
  · simp only [client, Option.ite_none_right_eq_some] at hc
    cases h : checkConfig p next with
    | error error => simp [h,Except.toOption] at hc
    | ok value =>
      simp only [h,Except.toOption,Option.some.injEq] at hc
      rw [← hc.2]
      exact checkConfig_normalized h

end Edits

theorem commands_independent (portFree : Bool → UInt16 → Bool) (written : Bool → Bool)
    (commands : Bool → ConfigCommand)
    (hd : ∀ f ∈ fields (commands false), f ∉ fields (commands true)) :
    Independent (fun who => client p (portFree who) (written who) (commands who))
      (fun who => Effect (commands who)) (fun config => config.normalized = config) where
  kept who config next saved _ hp hc := by
    rw [(client_spec hp hc).2]
    exact normalized_idempotent next
  achieved who config next saved hv hp hc := by
    obtain ⟨he,rfl⟩ := client_spec hp hc
    exact edit_effect (commands who) hv he
  framed who config next saved hv hp hc := by
    obtain ⟨he,rfl⟩ := client_spec hp hc
    refine effect_congr (commands (!who)) (fun f hf => edit_frame (commands who) hv he f ?_)
    cases who with
    | false => exact fun hm => hd f hm hf
    | true => exact hd f hf

/-- Two successful commands on different fields both take effect exactly when one
read after the other had saved, or the effect of the one that saved first was there
before. -/
theorem no_lost_update_iff (portFree : Bool → UInt16 → Bool) (written : Bool → Bool)
    (commands : Bool → ConfigCommand) (base : AgentConfig) (ls : List Bool)
    (s : Shared AgentConfig)
    (hd : ∀ f ∈ fields (commands false), f ∉ fields (commands true))
    (hb : base.normalized = base)
    (hr : run (turn (fun who => client p (portFree who) (written who) (commands who))) ls
      { value := base } = some s) (hs : Succeeded s) :
    (∀ who, Effect (commands who) s.value) ↔
      (∃ a, ls = [a,a,!a,!a]) ∨ ∃ a, ls.getLast? = some (!a) ∧ Effect (commands a) base :=
  both_effects_iff (commands_independent p portFree written commands hd) hb hr hs

def exampleUrl : WebUrl.Url where
  scheme := "https"
  hostStr := some "example.com"
  port := none
  path := "/"
  query := none
  asStr := "https://example.com/"
  origin := .tuple "https" "example.com" 443
  origin_http := by
    rintro - host ⟨⟩
    exact ⟨443,rfl,rfl⟩

def exampleParsers : Parsers where
  url text := if text = "https://example.com" then some exampleUrl else none
  base64 := fun _ => none
  ipNet := fun _ => none

def officeConfig : AgentConfig := { AgentConfig.default with
  security := ⟨[],["127.0.0.1","192.168.1.20"]⟩ }

/-- One administrator closes an address while another imports a list of origins. -/
def deleteAndImport : Bool → ConfigCommand
  | false => .ipDelete "192.168.1.20"
  | true => .importConfig (.ok ⟨"yinshu-config",1,
      { security := some { allowedOrigins := some ["https://example.com"] } }⟩)

def deleteAndImportClient (who : Bool) : Client AgentConfig :=
  client exampleParsers (fun _ => true) true (deleteAndImport who)

theorem serialRun_runs : (run (turn deleteAndImportClient) [true,true,false,false]
    { value := officeConfig }).isSome = true := by
  decide +kernel

def serialResult : Shared AgentConfig :=
  (run (turn deleteAndImportClient) [true,true,false,false] { value := officeConfig }).get
    serialRun_runs

theorem no_lost_update_serial :
    Effect (deleteAndImport false) serialResult.value ∧
      Effect (deleteAndImport true) serialResult.value := by
  have h := (no_lost_update_iff exampleParsers (fun _ _ => true) (fun _ => true) deleteAndImport
    officeConfig [true,true,false,false] serialResult (by decide) (by decide)
    (Option.some_get serialRun_runs).symm (fun who => by cases who <;> rfl)).mpr
    (Or.inl ⟨true,rfl⟩)
  exact ⟨h false,h true⟩

theorem overlappingRun_runs : (run (turn deleteAndImportClient) [true,false,false,true]
    { value := officeConfig }).isSome = true := by
  decide +kernel

def overlappingResult : Shared AgentConfig :=
  (run (turn deleteAndImportClient) [true,false,false,true] { value := officeConfig }).get
    overlappingRun_runs

/-- The import read before the deletion was saved: both report success, and the
deleted address is allowed again. -/
theorem deletion_lost :
    (∀ f ∈ fields (deleteAndImport false), f ∉ fields (deleteAndImport true)) ∧
      Succeeded overlappingResult ∧
      "192.168.1.20" ∈ overlappingResult.value.security.allowedIps ∧
      ¬Effect (deleteAndImport false) overlappingResult.value := by
  have hm : "192.168.1.20" ∈ overlappingResult.value.security.allowedIps := by
    decide +kernel
  exact ⟨by decide,fun who => by cases who <;> rfl,hm,fun he => he hm⟩

end YinShu.ConfigCommands
