import YinShu.CommandDispatch
import YinShu.FileStore

/-!
# The configuration file

A save checks the submitted configuration, creates the directory, opens the
file and thereby empties it, writes the text and replaces the configuration in
memory. Each of these steps may fail, the last write after any number of
bytes. A load decodes the file and normalizes it; it makes none of the checks
of a save, and neither do the two commands that report the file as valid.
-/

set_option autoImplicit false

namespace YinShu.ConfigFile
open YinShu.Protocol YinShu.Settings YinShu.ConfigStore YinShu.ErrorState YinShu.FileStore
open YinShu.FunctionalCommand YinShu.ConfigTransfer YinShu.CommandDispatch

abbrev Content := List UInt8

/-- Opening the file fails before it is emptied; a write stops after some bytes. -/
inductive WriteOutcome where
  | written
  | openFails (error : String)
  | stopsAfter (count : ℕ) (error : String)
  deriving DecidableEq, Repr

structure SaveOutcomes where
  createDirAll : Option String
  write : WriteOutcome
  deriving DecidableEq, Repr

structure ConfigPath where
  hasParent : Bool
  deriving DecidableEq, Repr

structure AgentState where
  config : AgentConfig
  configPath : Option ConfigPath
  file : Option Content
  deriving DecidableEq

def fsWrite (content : Content) (outcome : WriteOutcome) : EStateM String AgentState PUnit :=
  match outcome with
  | .openFails error => throw error
  | .written => modify (fun s => { s with file := some content })
  | .stopsAfter count error => do
    modify (fun s => { s with file := some (content.take count) })
    throw error

section Saving

variable (p : Parsers) (codec : ConfigCodec) (outcomes : SaveOutcomes)

def savedContent (config : AgentConfig) : Content := (savedText codec config).toUTF8.data.toList

def createDirAll (error : Option String) : EStateM String AgentState PUnit :=
  match error with
  | some error => throw error
  | none => pure ⟨⟩

def save (path : ConfigPath) (config : AgentConfig) : EStateM String AgentState PUnit := do
  if path.hasParent then createDirAll outcomes.createDirAll
  fsWrite (savedContent codec config) outcomes.write

def saveConfig (config : AgentConfig) : EStateM String AgentState AgentConfig := do
  let config ← ofExcept (checkConfig p config)
  let s ← get
  match s.configPath with
  | some path => save codec outcomes path config
  | none => pure ⟨⟩
  modify (fun s => { s with config := config })
  pure config

/-- After how many bytes a write stops that has emptied the file. -/
def WriteOutcome.cut : WriteOutcome → Option ℕ
  | .stopsAfter count _ => some count
  | _ => none

def SaveOutcomes.cut (outcomes : SaveOutcomes) (path : ConfigPath) : Option ℕ :=
  if path.hasParent && outcomes.createDirAll.isSome then none else outcomes.write.cut

/-- The file after a failure: as it was, or emptied and written in part. -/
def leftover (cut : Option ℕ) (content : Content) (s : AgentState) : AgentState :=
  match cut with
  | none => s
  | some count => { s with file := some (content.take count) }

variable {p codec outcomes}

theorem fsWrite_rule (content : Content) (outcome : WriteOutcome) (s : AgentState) :
    Ensures (fsWrite content outcome) s
      (fun _ t => outcome.cut = none ∧ t = { s with file := some content })
      (fun _ t => t = leftover outcome.cut content s) := by
  cases outcome with
  | written => exact ⟨rfl,rfl⟩
  | openFails error => exact ensures_throw rfl
  | stopsAfter count error => exact ensures_modify_bind (ensures_throw rfl)

theorem save_rule (path : ConfigPath) (config : AgentConfig) (s : AgentState) :
    Ensures (save codec outcomes path config) s
      (fun _ t => outcomes.cut path = none ∧
        t = { s with file := some (savedContent codec config) })
      (fun _ t => t = leftover (outcomes.cut path) (savedContent codec config) s) := by
  have hwrite := fsWrite_rule (savedContent codec config) outcomes.write s
  unfold save SaveOutcomes.cut
  cases hp : path.hasParent with
  | false => exact hwrite
  | true =>
    cases hc : outcomes.createDirAll with
    | none => exact hwrite
    | some error => exact ensures_throw rfl

/-- A failed save keeps the configuration in memory, and fails before the file is opened
or with what the write has left. -/
theorem saveConfig_rule (p : Parsers) (codec : ConfigCodec) (outcomes : SaveOutcomes)
    (config : AgentConfig) (s : AgentState) {path : ConfigPath} (hp : s.configPath = some path) :
    Ensures (saveConfig p codec outcomes config) s
      (fun checked _ => checkConfig p config = .ok checked ∧ outcomes.cut path = none)
      (fun _ t => (t = s ∧ ∀ checked, checkConfig p config ≠ .ok checked) ∨
        ∃ checked, checkConfig p config = .ok checked ∧
          t = leftover (outcomes.cut path) (savedContent codec checked) s) := by
  unfold saveConfig
  refine (ofExcept_rule _ s).bind ?_ ?_
  · rintro checked s ⟨hc,rfl⟩
    refine ensures_get_bind ?_
    rw [hp]
    refine (save_rule path checked s).bind ?_ ?_
    · rintro _ t ⟨hcut,rfl⟩
      exact ensures_modify_bind (ensures_pure ⟨hc,hcut⟩)
    · rintro _ t rfl
      exact Or.inr ⟨checked,hc,rfl⟩
  · rintro error t ⟨he,rfl⟩
    exact Or.inl ⟨rfl,fun checked hc => by simp [he] at hc⟩

end Saving

section Unchanged

variable {p : Parsers} {outcomes : SaveOutcomes} {path : ConfigPath}
variable {config checked : AgentConfig} {s : AgentState}

theorem leftover_config (cut : Option ℕ) (content : Content) :
    (leftover cut content s).config = s.config := by
  cases cut <;> rfl

/-- A save whose write is cut short returns early. -/
theorem saveConfig_cut (codec : ConfigCodec) (hp : s.configPath = some path)
    (hc : checkConfig p config = .ok checked) {count : ℕ} (hcut : outcomes.cut path = some count) :
    ∃ error, saveConfig p codec outcomes config s =
      .error error { s with file := some ((savedContent codec checked).take count) } := by
  have hr := saveConfig_rule p codec outcomes config s hp
  unfold Ensures at hr
  cases hs : saveConfig p codec outcomes config s with
  | ok a t =>
    rw [hs] at hr
    simp [hcut] at hr
  | error e t =>
    rw [hs] at hr
    obtain ⟨-,hn⟩ | ⟨checked',hc',rfl⟩ := hr
    · exact absurd hc (hn checked)
    · obtain rfl := Except.ok.inj (hc.symm.trans hc')
      exact ⟨e,by rw [hcut]; rfl⟩

end Unchanged

/-- A failed save changes nothing exactly when its write is not cut short after the file was
emptied, or is cut where the file ended before. -/
theorem failed_save_changes_nothing_iff (p : Parsers) (codec : ConfigCodec)
    (outcomes : SaveOutcomes) (path : ConfigPath) (config : AgentConfig) (s : AgentState)
    (hp : s.configPath = some path) :
    (∀ error t, saveConfig p codec outcomes config s = .error error t →
        t.config = s.config ∧ t.file = s.file) ↔
      ∀ checked count, checkConfig p config = .ok checked → outcomes.cut path = some count →
        s.file = some ((savedContent codec checked).take count) := by
  constructor
  · intro h checked count hc hcut
    obtain ⟨error,hs⟩ := saveConfig_cut codec hp hc hcut
    exact (h error _ hs).2.symm
  · intro h error t hs
    have hr := saveConfig_rule p codec outcomes config s hp
    unfold Ensures at hr
    rw [hs] at hr
    obtain ⟨rfl,-⟩ | ⟨checked,hc,rfl⟩ := hr
    · exact ⟨rfl,rfl⟩
    · refine ⟨leftover_config _ _,?_⟩
      cases hcut : outcomes.cut path with
      | none => rfl
      | some count => exact (h checked count hc hcut).symm

/-- A running agent whose file holds its configuration. -/
def savedAgent : AgentState where
  config := portConfig 19090
  configPath := some ⟨true⟩
  file := some (savedContent portCodec (portConfig 19090))

def fullDisk : SaveOutcomes := ⟨none,.stopsAfter 0 "No space left on device (os error 28)"⟩

def readOnlyFile : SaveOutcomes := ⟨none,.openFails "Permission denied (os error 13)"⟩

theorem savedAgent_kept_by_readOnlyFile :
    ∃ error t, saveConfig noParsers portCodec readOnlyFile (portConfig 19091) savedAgent =
      .error error t ∧ t.config = savedAgent.config ∧ t.file = savedAgent.file := by
  refine ⟨_,_,rfl,?_⟩
  exact (failed_save_changes_nothing_iff noParsers portCodec readOnlyFile ⟨true⟩
    (portConfig 19091) savedAgent rfl).mpr (fun _ _ _ h => nomatch h) _ _ rfl

/-- The disk is full once the file has been emptied: the save fails and the old text is
gone. -/
theorem savedAgent_lost_on_fullDisk :
    ∃ error t, saveConfig noParsers portCodec fullDisk (portConfig 19091) savedAgent =
      .error error t ∧ t.file = some [] ∧ t.file ≠ savedAgent.file := by
  refine ⟨_,_,rfl,rfl,?_⟩
  have hne : (savedContent portCodec (portConfig 19090)).isEmpty = false := by decide +kernel
  intro h
  have hnil : [] = savedContent portCodec (portConfig 19090) := Option.some.inj h
  rw [← hnil] at hne
  cases hne

section Loading

variable (codec : ConfigCodec) (decodeError : String → String)

def readText (content : Content) : Option String := String.fromUTF8? ⟨content.toArray⟩

/-- `AgentConfig::load`; the file is absent, cannot be read or has the given content. -/
def loadFile : Option (Except String Content) → Except String AgentConfig
  | none => .ok AgentConfig.default
  | some (.error error) => .error error
  | some (.ok content) =>
    match readText content with
    | none => .error "stream did not contain valid UTF-8"
    | some text =>
      match codec.decode text with
      | none => .error (decodeError text)
      | some config => .ok config.normalized

inductive DoctorStatus where
  | pass
  | warn
  | fail
  deriving DecidableEq, Repr

structure DoctorCheck where
  code : String
  status : DoctorStatus
  message : String
  suggestion : Option String
  deriving DecidableEq, Repr

/-- The check on what the file of the agent loads as, if the agent has one. -/
def configCheck : Option (Except String AgentConfig) → DoctorCheck
  | some (.ok _) => ⟨"config.valid",.pass,"Configuration is readable and valid.",none⟩
  | some (.error error) => ⟨"config.valid",.fail,"Configuration is invalid: " ++ error,
      some "Fix the configuration file and run doctor again."⟩
  | none => ⟨"config.valid",.warn,"No persistent configuration path is configured.",none⟩

/-- The operations of an agent whose files are given. -/
def withFiles {R : Type} (ops : Operations R) (empty : R)
    (files : String → Option (Except String Content)) : Operations R := { ops with
  loadConfig := fun path => (loadFile codec decodeError (files path)).map (fun _ => empty) }

/-- The file decodes to a configuration that a save would accept. -/
def SaveWouldAccept (p : Parsers) (content : Content) : Prop :=
  ∃ text config checked, readText content = some text ∧ codec.decode text = some config ∧
    checkConfig p config = .ok checked

/-- Every origin and every entry passes its check. -/
def EntriesValid (p : Parsers) (config : AgentConfig) : Prop :=
  (∀ origin ∈ config.security.allowedOrigins, validateOrigin p origin = .ok ()) ∧
    ∀ entry ∈ config.security.allowedIps, validateAllowedIpEntry p entry = .ok ()

variable {codec decodeError} {p : Parsers} {content : Content}

theorem checkConfig_accepts_iff (config : AgentConfig) :
    (∃ checked, checkConfig p config = .ok checked) ↔ EntriesValid p config := by
  constructor
  · rintro ⟨checked,h⟩
    exact checkConfig_ok h
  · rintro ⟨ho,hi⟩
    have horigins : checkAll (fun origin => (validateOrigin p origin).mapError
        ProtocolError.message) config.security.allowedOrigins = .ok () :=
      (checkAll_ok _ _).mpr (fun origin hm => by rw [ho origin hm]; rfl)
    have hips := (checkAll_ok (validateAllowedIpEntry p) config.security.allowedIps).mpr hi
    exact ⟨config.normalized,by simp [checkConfig,horigins,hips]⟩

/-- A load succeeds when the content decodes, and checks nothing else. -/
theorem loadFile_ok : (∃ config, loadFile codec decodeError (some (.ok content)) = .ok config) ↔
    ∃ text config, readText content = some text ∧ codec.decode text = some config := by
  cases ht : readText content with
  | none => simp [loadFile,ht]
  | some text =>
    cases hd : codec.decode text with
    | none => simp [loadFile,ht,hd]
    | some config => simp [loadFile,ht,hd]

theorem configCheck_pass (loaded : Except String AgentConfig) :
    (configCheck (some loaded)).status = .pass ↔ ∃ config, loaded = .ok config := by
  cases loaded <;> simp [configCheck]

theorem validateConfig_ok {R : Type} (ops : Operations R) (empty : R)
    (files : String → Option (Except String Content)) {path : Option String} {target : String}
    (hp : path.or ops.configPath = some target) :
    (∃ r, runtimeExecute (withFiles codec decodeError ops empty files) (.validateConfig path) =
        .ok r) ↔ ∃ config, loadFile codec decodeError (files target) = .ok config := by
  have hp' : path.or (withFiles codec decodeError ops empty files).configPath = some target := hp
  simp only [runtimeExecute,hp']
  cases hl : loadFile codec decodeError (files target) <;>
    simp [withFiles,hl,Except.map,Except.mapError]

end Loading

/-- The two commands that report the file as valid agree with what a save would accept
exactly when the file does not decode or lists only valid entries. -/
theorem config_validation_agrees_iff {R : Type} (ops : Operations R) (codec : ConfigCodec)
    (decodeError : String → String) (empty : R)
    (files : String → Option (Except String Content)) (path : Option String) (target : String)
    (content : Content) (hp : path.or ops.configPath = some target)
    (hf : files target = some (.ok content)) :
    (((∃ r, runtimeExecute (withFiles codec decodeError ops empty files) (.validateConfig path) =
          .ok r) ↔ SaveWouldAccept codec ops.parsers content) ∧
      ((configCheck (some (loadFile codec decodeError (files target)))).status = .pass ↔
        SaveWouldAccept codec ops.parsers content)) ↔
      ∀ text config, readText content = some text → codec.decode text = some config →
        EntriesValid ops.parsers config := by
  rw [validateConfig_ok ops empty files hp,configCheck_pass,hf,loadFile_ok,and_self]
  constructor
  · intro h text config ht hd
    obtain ⟨text',config',checked,ht',hd',hc⟩ := h.mp ⟨text,config,ht,hd⟩
    obtain rfl := Option.some.inj (ht.symm.trans ht')
    obtain rfl := Option.some.inj (hd.symm.trans hd')
    exact (checkConfig_accepts_iff config).mp ⟨checked,hc⟩
  · intro h
    constructor
    · rintro ⟨text,config,ht,hd⟩
      obtain ⟨checked,hc⟩ := (checkConfig_accepts_iff config).mpr (h text config ht hd)
      exact ⟨text,config,checked,ht,hd,hc⟩
    · rintro ⟨text,config,checked,ht,hd,-⟩
      exact ⟨text,config,ht,hd⟩

theorem readText_toUTF8 (text : String) : readText text.toUTF8.data.toList = some text := by
  have hbytes : ByteArray.mk text.toUTF8.data.toList.toArray = text.toByteArray := by simp
  rw [readText,hbytes,String.fromUTF8?,dif_pos text.isValidUTF8]
  rfl

/-- The first-run configuration with one allowed origin, and its file. -/
def originConfig (origin : String) : AgentConfig := { AgentConfig.default with
  security := ⟨[origin],["127.0.0.1"]⟩ }

def originText (origin : String) : String :=
  "\x7b\n  \"service\": \x7b\n    \"host\": \"127.0.0.1\",\n    \"port\": 17890\n  \x7d,\n" ++
  "  \"security\": \x7b\n    \"allowed_origins\": [\n      \"" ++ origin ++ "\"\n    ],\n" ++
  "    \"allowed_ips\": [\n      \"127.0.0.1\"\n    ]\n  \x7d,\n  \"printing\": \x7b\n" ++
  "    \"default_printer\": null,\n    \"default_paper\": null,\n    \"default_copies\": 1\n" ++
  "  \x7d,\n  \"limits\": \x7b\n    \"max_file_size_mb\": 20,\n    \"max_batch_jobs\": 20,\n" ++
  "    \"max_copies\": 100,\n    \"download_timeout_seconds\": 30\n  \x7d,\n  \"app\": \x7b\n" ++
  "    \"autostart\": false,\n    \"language\": \"zh-CN\"\n  \x7d\n\x7d"

/-- The codec on the file with the one origin. -/
def originCodec (origin : String) : ConfigCodec where
  encode _ := originText origin
  decode text := if text = originText origin then some (originConfig origin) else none

def originContent (origin : String) : Content := (originText origin).toUTF8.data.toList

def originFiles (origin : String) : String → Option (Except String Content) :=
  fun _ => some (.ok (originContent origin))

def badJson (_ : String) : String := "expected value at line 1 column 1"

theorem garbage_rejected_by_both :
    (configCheck (some (loadFile (originCodec "") badJson (some (.ok [0x21]))))).status ≠ .pass ∧
      ¬SaveWouldAccept (originCodec "") emptyOperations.parsers [0x21] := by
  have htext : readText [0x21] = some "!" := readText_toUTF8 "!"
  have hdecode : (originCodec "").decode "!" = none := by decide +kernel
  have h := (config_validation_agrees_iff emptyOperations (originCodec "") badJson "empty"
    (fun _ => some (.ok [0x21])) none "config.json" [0x21] rfl rfl).mpr (by
      intro text config ht hd
      obtain rfl := Option.some.inj (htext.symm.trans ht)
      rw [hdecode] at hd
      cases hd)
  have hfail : (configCheck (some (loadFile (originCodec "") badJson
      (some (.ok [0x21]))))).status ≠ .pass := by
    simp [loadFile,htext,hdecode,configCheck]
  exact ⟨hfail,fun hs => hfail (h.2.mpr hs)⟩

theorem load_originContent (origin : String) :
    loadFile (originCodec origin) badJson (some (.ok (originContent origin))) =
      .ok (originConfig origin).normalized := by
  have htext : readText (originContent origin) = some (originText origin) := readText_toUTF8 _
  simp [loadFile,htext,originCodec]

/-- The file lists an origin that no save would accept, and both commands report it as
valid. -/
theorem invalid_origin_reported_valid :
    (∃ r, runtimeExecute (withFiles (originCodec "erp.example.com") badJson emptyOperations
        "empty" (originFiles "erp.example.com")) (.validateConfig none) = .ok r) ∧
      (configCheck (some (loadFile (originCodec "erp.example.com") badJson
        (originFiles "erp.example.com" "config.json")))).message =
          "Configuration is readable and valid." ∧
      ¬SaveWouldAccept (originCodec "erp.example.com") emptyOperations.parsers
        (originContent "erp.example.com") := by
  have hload := load_originContent "erp.example.com"
  have htext : readText (originContent "erp.example.com") = some (originText "erp.example.com") :=
    readText_toUTF8 _
  refine ⟨(validateConfig_ok emptyOperations "empty" _ rfl).mpr ⟨_,hload⟩,?_,?_⟩
  · rw [originFiles,hload]
    rfl
  · rintro ⟨text,config,checked,ht,hd,hc⟩
    obtain rfl := Option.some.inj (htext.symm.trans ht)
    have hdecode : (originCodec "erp.example.com").decode (originText "erp.example.com") =
        some (originConfig "erp.example.com") := by simp [originCodec]
    obtain rfl := Option.some.inj (hdecode.symm.trans hd)
    have herror : checkConfig emptyOperations.parsers (originConfig "erp.example.com") =
      .error "invalid origin" := rfl
    rw [herror] at hc
    cases hc

end YinShu.ConfigFile
