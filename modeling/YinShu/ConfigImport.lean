import YinShu.ConfigTransfer

/-!
# Importing what was previewed

A preview and an import are two requests. Each reads the configuration and
then the file, and either may have changed in between; the hash that the
preview returned is what the import compares. The machine runs any number of
previews, imports and other saves beside arbitrary changes of the files.
-/

set_option autoImplicit false

namespace YinShu.ConfigImport
open YinShu.Protocol YinShu.Settings YinShu.ConfigStore YinShu.ConfigCommands YinShu.LabelledRun
open YinShu.FunctionalCommand YinShu.ConfigTransfer

structure ImportPreviewItem where
  key : String
  label : String
  current : String
  next : String
  deriving DecidableEq, Repr

structure ImportPreview where
  fileHash : String
  items : List ImportPreviewItem
  deriving DecidableEq, Repr

def itemCount (entries : List String) : String := toString entries.length ++ " 项"

section Items

variable (current next : AgentConfig)

def portItem : ImportPreviewItem :=
  ⟨"service.port","本地端口",toString current.service.port,toString next.service.port⟩

def originsItem : ImportPreviewItem := ⟨"security.allowed_origins","网站白名单",
  itemCount current.security.allowedOrigins,itemCount next.security.allowedOrigins⟩

def ipsItem : ImportPreviewItem := ⟨"security.allowed_ips","IP 白名单",
  itemCount current.security.allowedIps,itemCount next.security.allowedIps⟩

def previewItems (payload : PartialTransferConfig) : List ImportPreviewItem :=
  (if payload.port.isSome then [portItem current next] else []) ++
    (if payload.allowedOrigins.isSome then [originsItem current next] else []) ++
    (if payload.allowedIps.isSome then [ipsItem current next] else [])

end Items

variable (lib : Primitives) (p : Parsers) (codec : ConfigCodec)

def previewPayload (current : AgentConfig) (payload : ConfigTransferPayload) :
    Except String ImportPreview :=
  match mergePayload p current payload with
  | .error error => .error error
  | .ok next => .ok ⟨"",previewItems current next payload.config⟩

def readEncryptedFileWithHash :
    Option String → Except ConfigTransferError (EncryptedConfigFile × String)
  | none => .error .invalidFile
  | some content =>
    match lib.fileFromStr content with
    | none => .error .invalidFile
    | some file => .ok (file,lib.sha256Hex content)

def runtimeError (message : String) : CommandError := ⟨.runtime,message⟩

/-- `PreviewConfigImport` on the configuration it has read and what the file holds. -/
def previewConfigImport (current : AgentConfig) (content : Option String) (password : String) :
    Except CommandError ImportPreview :=
  match readEncryptedFileWithHash lib content with
  | .error error => .error (runtimeError error.message)
  | .ok (encrypted,fileHash) =>
    match decryptPayload lib encrypted password with
    | .error error => .error (runtimeError error.message)
    | .ok payload =>
      match previewPayload p current payload with
      | .error error => .error (runtimeError error)
      | .ok preview => .ok { preview with fileHash := fileHash }

/-- `ImportConfig` up to the configuration it hands to `save_config`. -/
def importConfig (current : AgentConfig) (content : Option String)
    (password expectedFileHash : String) : Except CommandError AgentConfig :=
  match readEncryptedFileWithHash lib content with
  | .error error => .error (runtimeError error.message)
  | .ok (encrypted,fileHash) =>
    if fileHash ≠ expectedFileHash then .error ⟨.conflict,"配置文件已变化，请重新预览后导入"⟩
    else match decryptPayload lib encrypted password with
      | .error error => .error (runtimeError error.message)
      | .ok payload =>
        match mergePayload p current payload with
        | .error error => .error (runtimeError error)
        | .ok merged => .ok merged

/-- The payload that a file content holds under a password. -/
def carried (content password : String) : Except ConfigTransferError ConfigTransferPayload :=
  match readEncryptedFileWithHash lib (some content) with
  | .error error => .error error
  | .ok (encrypted,_) => decryptPayload lib encrypted password

/-- The fields of a configuration. -/
inductive ConfigField where
  | serviceHost | servicePort | allowedOrigins | allowedIps | defaultPrinter | defaultPaper
  | defaultCopies | maxFileSizeMb | maxBatchJobs | maxCopies | downloadTimeoutSeconds
  | autostart | language
  deriving DecidableEq, Repr

def ConfigField.key : ConfigField → String
  | .serviceHost => "service.host"
  | .servicePort => "service.port"
  | .allowedOrigins => "security.allowed_origins"
  | .allowedIps => "security.allowed_ips"
  | .defaultPrinter => "printing.default_printer"
  | .defaultPaper => "printing.default_paper"
  | .defaultCopies => "printing.default_copies"
  | .maxFileSizeMb => "limits.max_file_size_mb"
  | .maxBatchJobs => "limits.max_batch_jobs"
  | .maxCopies => "limits.max_copies"
  | .downloadTimeoutSeconds => "limits.download_timeout_seconds"
  | .autostart => "app.autostart"
  | .language => "app.language"

def ConfigField.Same (c d : AgentConfig) : ConfigField → Prop
  | .serviceHost => c.service.host = d.service.host
  | .servicePort => c.service.port = d.service.port
  | .allowedOrigins => c.security.allowedOrigins = d.security.allowedOrigins
  | .allowedIps => c.security.allowedIps = d.security.allowedIps
  | .defaultPrinter => c.printing.defaultPrinter = d.printing.defaultPrinter
  | .defaultPaper => c.printing.defaultPaper = d.printing.defaultPaper
  | .defaultCopies => c.printing.defaultCopies = d.printing.defaultCopies
  | .maxFileSizeMb => c.limits.maxFileSizeMb = d.limits.maxFileSizeMb
  | .maxBatchJobs => c.limits.maxBatchJobs = d.limits.maxBatchJobs
  | .maxCopies => c.limits.maxCopies = d.limits.maxCopies
  | .downloadTimeoutSeconds => c.limits.downloadTimeoutSeconds = d.limits.downloadTimeoutSeconds
  | .autostart => c.app.autostart = d.app.autostart
  | .language => c.app.language = d.app.language

inductive Request where
  | preview (path password : String)
  | apply (path password expectedFileHash : String)
  deriving DecidableEq

structure Previewed where
  content : String
  password : String
  current : AgentConfig
  preview : ImportPreview

structure Imported where
  content : String
  password : String
  expectedFileHash : String
  current : AgentConfig
  saved : AgentConfig

/-- Where one call of the executor stands. -/
inductive Phase where
  | idle
  | reading (request : Request) (current : AgentConfig)
  | saving (record : Imported)

/-- The configuration with the saves under way, the files to import, the calls under
way, and the previews and imports that have succeeded. -/
structure System where
  store : Store
  files : String → Option String
  calls : ℕ → Phase := fun _ => .idle
  previews : List Previewed := []
  imports : List Imported := []

def initial (file : Option String) (memory : AgentConfig) (files : String → Option String) :
    System where
  store := { file := file, memory := memory }
  files := files

/-- A call reads the configuration, then the file; the steps of a save are those of
`ConfigStore`. -/
inductive Label where
  | modify (path : String) (content : Option String)
  | begin (i : ℕ) (request : Request)
  | load (i : ℕ)
  | save (l : ConfigStore.Label)

def System.setCall (s : System) (i : ℕ) (phase : Phase) : System :=
  { s with calls := Function.update s.calls i phase }

def Phase.isIdle : Phase → Bool
  | .idle => true
  | _ => false

/-- The call goes on to save when its configuration has passed the checks. -/
def savingPhase (content password expectedFileHash : String) (current : AgentConfig) :
    SavePhase → Phase
  | .checked saved => .saving ⟨content,password,expectedFileHash,current,saved⟩
  | _ => .idle

def step (s : System) : Label → Option System
  | .modify path content => some { s with files := Function.update s.files path content }
  | .begin i request =>
    if (s.calls i).isIdle ∧ s.store.saves i = .idle then
      some (s.setCall i (.reading request s.store.memory))
    else none
  | .load i =>
    match s.calls i with
    | .reading (.preview path password) current =>
      match previewConfigImport lib p current (s.files path) password with
      | .error _ => some (s.setCall i .idle)
      | .ok preview => some (System.setCall { s with
          previews := ⟨(s.files path).getD "",password,current,preview⟩::s.previews } i .idle)
    | .reading (.apply path password expectedFileHash) current =>
      match importConfig lib p current (s.files path) password expectedFileHash with
      | .error _ => some (s.setCall i .idle)
      | .ok merged => (ConfigStore.step p codec s.store (i,.start merged)).map (fun store =>
          System.setCall { s with store := store } i (savingPhase ((s.files path).getD "")
            password expectedFileHash current (store.saves i)))
    | _ => none
  | .save (i,l) =>
    match s.calls i,l with
    | .reading _ _,_ => none
    | .saving record,.apply => (ConfigStore.step p codec s.store (i,.apply)).map (fun store =>
        System.setCall { s with store := store, imports := record::s.imports } i .idle)
    | .saving _,.writeFails content =>
      (ConfigStore.step p codec s.store (i,.writeFails content)).map (fun store =>
        System.setCall { s with store := store } i .idle)
    | _,l => (ConfigStore.step p codec s.store (i,l)).map (fun store => { s with store := store })

/-- What a recorded preview showed is what the executor computed from its inputs. -/
def Shown (r : Previewed) : Prop :=
  previewConfigImport lib p r.current (some r.content) r.password = .ok r.preview

/-- The inputs of a recorded import passed every check on the way to its save. -/
def Accepted (r : Imported) : Prop :=
  r.current.normalized = r.current ∧ ∃ merged,
    importConfig lib p r.current (some r.content) r.password r.expectedFileHash = .ok merged ∧
      checkConfig p merged = .ok r.saved

section Requests

variable {lib p} {current next : AgentConfig} {content : Option String} {password : String}

/-- The fields determine the configuration. -/
theorem same_iff {c d : AgentConfig} : (∀ f, ConfigField.Same c d f) ↔ c = d := by
  constructor
  · intro h
    obtain ⟨⟨ch,cp⟩,⟨co,ci⟩,⟨cd,ca,cc⟩,⟨cf,cb,cm,ct⟩,⟨cs,cl⟩⟩ := c
    obtain ⟨⟨dh,dp⟩,⟨d_o,di⟩,⟨dd,da,dc⟩,⟨df,db,dm,dt⟩,⟨ds,dl⟩⟩ := d
    obtain rfl : ch = dh := h .serviceHost
    obtain rfl : cp = dp := h .servicePort
    obtain rfl : co = d_o := h .allowedOrigins
    obtain rfl : ci = di := h .allowedIps
    obtain rfl : cd = dd := h .defaultPrinter
    obtain rfl : ca = da := h .defaultPaper
    obtain rfl : cc = dc := h .defaultCopies
    obtain rfl : cf = df := h .maxFileSizeMb
    obtain rfl : cb = db := h .maxBatchJobs
    obtain rfl : cm = dm := h .maxCopies
    obtain rfl : ct = dt := h .downloadTimeoutSeconds
    obtain rfl : cs = ds := h .autostart
    obtain rfl : cl = dl := h .language
    rfl
  · rintro rfl f
    cases f <;> rfl

/-- A field that a merge changes is listed among the items, whatever configuration the
items were computed from. -/
theorem changed_field_listed {payload : ConfigTransferPayload} {seen shown : AgentConfig}
    (hn : current.normalized = current) (hm : mergePayload p current payload = .ok next)
    (f : ConfigField) (hf : ¬f.Same current next) :
    ∃ item ∈ previewItems seen shown payload.config, item.key = f.key := by
  have hips : normalizeAllowedIps current.security.allowedIps = current.security.allowedIps :=
    congrArg (fun c : AgentConfig => c.security.allowedIps) hn
  have hhost : "127.0.0.1" = current.service.host :=
    congrArg (fun c : AgentConfig => c.service.host) hn
  rw [mergePayload_ok hm] at hf
  cases f with
  | servicePort =>
    cases hp : payload.config.port with
    | none => simp [ConfigField.Same,AgentConfig.normalized,hp] at hf
    | some port => exact ⟨portItem seen shown,by simp [previewItems,hp],rfl⟩
  | allowedOrigins =>
    cases hp : payload.config.allowedOrigins with
    | none => simp [ConfigField.Same,AgentConfig.normalized,hp] at hf
    | some origins => exact ⟨originsItem seen shown,by simp [previewItems,hp],rfl⟩
  | allowedIps =>
    cases hp : payload.config.allowedIps with
    | none => simp [ConfigField.Same,AgentConfig.normalized,hp,hips] at hf
    | some ips => exact ⟨ipsItem seen shown,by simp [previewItems,hp],rfl⟩
  | serviceHost => exact absurd hhost.symm hf
  | _ => exact absurd rfl hf

theorem previewConfigImport_ok {preview : ImportPreview}
    (h : previewConfigImport lib p current content password = .ok preview) :
    ∃ text payload, content = some text ∧ carried lib text password = .ok payload ∧
      preview.fileHash = lib.sha256Hex text ∧
      previewPayload p current payload = .ok { preview with fileHash := "" } := by
  unfold previewConfigImport at h
  cases content with
  | none => simp [readEncryptedFileWithHash] at h
  | some text =>
    cases hf : lib.fileFromStr text with
    | none => simp [readEncryptedFileWithHash,hf] at h
    | some file =>
      simp only [readEncryptedFileWithHash,hf] at h
      cases hd : decryptPayload lib file password with
      | error error => simp [hd] at h
      | ok payload =>
        simp only [hd] at h
        cases hp : previewPayload p current payload with
        | error error => simp [hp] at h
        | ok shown =>
          simp only [hp,Except.ok.injEq] at h
          subst h
          refine ⟨text,payload,rfl,by simp [carried,readEncryptedFileWithHash,hf,hd],rfl,?_⟩
          rw [hp]
          unfold previewPayload at hp
          split at hp
          · cases hp
          · cases hp
            rfl

theorem importConfig_ok {expectedFileHash : String} {merged : AgentConfig}
    (h : importConfig lib p current content password expectedFileHash = .ok merged) :
    ∃ text payload, content = some text ∧ carried lib text password = .ok payload ∧
      lib.sha256Hex text = expectedFileHash ∧ mergePayload p current payload = .ok merged := by
  unfold importConfig at h
  cases content with
  | none => simp [readEncryptedFileWithHash] at h
  | some text =>
    cases hf : lib.fileFromStr text with
    | none => simp [readEncryptedFileWithHash,hf] at h
    | some file =>
      simp only [readEncryptedFileWithHash,hf] at h
      split at h
      · cases h
      · rename_i hash
        cases hd : decryptPayload lib file password with
        | error error => simp [hd] at h
        | ok payload =>
          simp only [hd] at h
          cases hm : mergePayload p current payload with
          | error error => simp [hm] at h
          | ok next =>
            simp only [hm,Except.ok.injEq] at h
            subst h
            exact ⟨text,payload,rfl,by simp [carried,readEncryptedFileWithHash,hf,hd],
              not_not.mp hash,hm⟩

/-- A merge is saved as it is: its result is in normal form. -/
theorem checkConfig_merged {payload : ConfigTransferPayload} {merged saved : AgentConfig}
    (hm : mergePayload p current payload = .ok merged)
    (hc : checkConfig p merged = .ok saved) : saved = merged := by
  rw [checkConfig_normalized hc,mergePayload_ok hm,normalized_idempotent]

end Requests

/-- The configuration that a save under way will put in place. -/
def pending : SavePhase → Option AgentConfig
  | .idle => none
  | .checked config => some config
  | .written config _ => some config

structure Normal (store : Store) : Prop where
  memory : store.memory.normalized = store.memory
  pending : ∀ i, ∀ config ∈ pending (store.saves i), config.normalized = config

def PhaseOk (save : SavePhase) : Phase → Prop
  | .idle => True
  | .reading _ current => current.normalized = current
  | .saving record => Accepted lib p record ∧ pending save = some record.saved

structure Inv (s : System) : Prop where
  normal : Normal s.store
  phases : ∀ i, PhaseOk lib p (s.store.saves i) (s.calls i)
  previews : ∀ r ∈ s.previews, Shown lib p r
  imports : ∀ r ∈ s.imports, Accepted lib p r

section Store

variable {p codec} {store after : Store} {i : ℕ} {l : SaveStep}

theorem store_frame (hs : ConfigStore.step p codec store (i,l) = some after) (j : ℕ) (hj : j ≠ i) :
    after.saves j = store.saves j := by
  obtain ⟨-,-,-,rfl | ⟨-,-,rfl⟩⟩ | ⟨-,-,-,rfl⟩ | ⟨-,-,-,-,rfl⟩ | ⟨-,-,-,-,rfl⟩ :=
    ConfigStore.step_cases hs
  · rfl
  all_goals simp [Store.setSave,hj]

theorem store_memory (hs : ConfigStore.step p codec store (i,l) = some after) :
    after.memory = store.memory ∨ l = .apply ∧ pending (store.saves i) = some after.memory := by
  obtain ⟨-,-,-,rfl | ⟨-,-,rfl⟩⟩ | ⟨-,-,-,rfl⟩ | ⟨-,-,-,-,rfl⟩ | ⟨config,rank,rfl,hi,rfl⟩ :=
    ConfigStore.step_cases hs
  · exact Or.inl rfl
  · exact Or.inl rfl
  · exact Or.inl rfl
  · exact Or.inl rfl
  · exact Or.inr ⟨rfl,by simp [hi,pending,Store.setSave]⟩

/-- Between its checks and its end a save keeps the configuration it was given. -/
theorem store_pending (hs : ConfigStore.step p codec store (i,l) = some after)
    {config : AgentConfig} (hc : pending (after.saves i) = some config) :
    pending (store.saves i) = some config ∨ config.normalized = config ∧ store.saves i = .idle := by
  obtain ⟨given,rfl,hi,rfl | ⟨checked,hk,rfl⟩⟩ | ⟨given,rfl,hi,rfl⟩ | ⟨_,_,_,_,rfl⟩ |
    ⟨_,_,_,_,rfl⟩ := ConfigStore.step_cases hs
  · exact Or.inl hc
  · simp only [Store.setSave,Function.update_self,pending,Option.some.injEq] at hc
    subst hc
    rw [checkConfig_normalized hk]
    exact Or.inr ⟨normalized_idempotent given,hi⟩
  · simp only [Store.setSave,Function.update_self,pending,Option.some.injEq] at hc
    simp [hi,pending,hc]
  · simp [Store.setSave,pending] at hc
  · simp [Store.setSave,pending] at hc

theorem Normal.step (h : Normal store) (hs : ConfigStore.step p codec store (i,l) = some after) :
    Normal after where
  memory := by
    rcases store_memory hs with hm | ⟨-,hm⟩
    · rw [hm]
      exact h.memory
    · exact h.pending i _ hm
  pending j config hc := by
    by_cases hj : j = i
    · subst hj
      rcases store_pending hs hc with hc | ⟨hc,-⟩
      · exact h.pending j config hc
      · exact hc
    · rw [store_frame hs j hj] at hc
      exact h.pending j config hc

end Store

section Steps

variable {lib p codec} {s t : System} {i : ℕ}

/-- A step of one call changes its own phase and save, and may add to the records. -/
theorem Inv.update (h : Inv lib p s) {store : Store} {phase : Phase} {previews : List Previewed}
    {imports : List Imported} (hn : Normal store)
    (hframe : ∀ j, j ≠ i → store.saves j = s.store.saves j)
    (hphase : PhaseOk lib p (store.saves i) phase) (hp : ∀ r ∈ previews, Shown lib p r)
    (hi : ∀ r ∈ imports, Accepted lib p r) :
    Inv lib p (System.setCall { s with
      store := store, previews := previews, imports := imports } i phase) where
  normal := hn
  phases j := by
    by_cases hj : j = i
    · subst hj
      simpa [System.setCall] using hphase
    · simpa [System.setCall,hj,hframe j hj] using h.phases j
  previews := hp
  imports := hi

theorem Inv.setIdle (h : Inv lib p s) : Inv lib p (s.setCall i .idle) :=
  h.update h.normal (fun _ _ => rfl) trivial h.previews h.imports

theorem Inv.load_preview (h : Inv lib p s) {path password : String} {current : AgentConfig}
    {preview : ImportPreview}
    (ho : previewConfigImport lib p current (s.files path) password = .ok preview) :
    Inv lib p (System.setCall { s with
      previews := ⟨(s.files path).getD "",password,current,preview⟩::s.previews } i .idle) := by
  obtain ⟨text,-,hf,-⟩ := previewConfigImport_ok ho
  refine h.update h.normal (fun _ _ => rfl) trivial (fun r hr => ?_) h.imports
  rcases List.mem_cons.mp hr with rfl | hr
  · rw [hf] at ho
    simpa [Shown,hf] using ho
  · exact h.previews r hr

theorem Inv.load_import (h : Inv lib p s) {path password expectedFileHash : String}
    {current merged : AgentConfig} {store : Store} (hc : current.normalized = current)
    (ho : importConfig lib p current (s.files path) password expectedFileHash = .ok merged)
    (hs : ConfigStore.step p codec s.store (i,.start merged) = some store) :
    Inv lib p (System.setCall { s with store := store } i (savingPhase ((s.files path).getD "")
      password expectedFileHash current (store.saves i))) := by
  obtain ⟨text,-,hf,-⟩ := importConfig_ok ho
  refine h.update (h.normal.step hs) (store_frame hs) ?_ h.previews h.imports
  obtain ⟨_,he,hi,rfl | ⟨checked,hk,rfl⟩⟩ | ⟨_,he,-⟩ | ⟨_,_,he,-⟩ | ⟨_,_,he,-⟩ :=
    ConfigStore.step_cases hs
  · rw [hi]
    trivial
  · obtain rfl := SaveStep.start.inj he
    rw [hf] at ho ⊢
    simp only [Store.setSave,Function.update_self,savingPhase]
    exact ⟨⟨hc,merged,ho,hk⟩,rfl⟩
  · cases he
  · cases he
  · cases he

theorem Inv.save (h : Inv lib p s) {l : SaveStep} {store : Store}
    (hs : ConfigStore.step p codec s.store (i,l) = some store)
    (hl : ∀ record, s.calls i = .saving record → l = .write) :
    Inv lib p { s with store := store } := by
  have hphase : PhaseOk lib p (store.saves i) (s.calls i) := by
    have hp := h.phases i
    cases hc : s.calls i with
    | idle => trivial
    | reading request current =>
      rw [hc] at hp
      exact hp
    | saving record =>
      rw [hc] at hp
      obtain rfl := hl record hc
      obtain ⟨_,he,-⟩ | ⟨config,-,hi,rfl⟩ | ⟨_,_,he,-⟩ | ⟨_,_,he,-⟩ := ConfigStore.step_cases hs
      · cases he
      · exact ⟨hp.1,by simpa [Store.setSave,pending,hi] using hp.2⟩
      · cases he
      · cases he
  have hu := h.update (i := i) (h.normal.step hs) (store_frame hs) hphase h.previews h.imports
  simpa [System.setCall] using hu

theorem import_step_inv (s : System) (l : Label) (t : System) (h : Inv lib p s)
    (hs : step lib p codec s l = some t) : Inv lib p t := by
  cases l with
  | modify path content =>
    cases hs
    exact ⟨h.normal,h.phases,h.previews,h.imports⟩
  | begin i request =>
    simp only [step, Option.ite_none_right_eq_some, Option.some.injEq] at hs
    obtain ⟨-,rfl⟩ := hs
    exact h.update h.normal (fun _ _ => rfl) h.normal.memory h.previews h.imports
  | load i =>
    simp only [step] at hs
    cases hc : s.calls i with
    | idle => simp [hc] at hs
    | saving record => simp [hc] at hs
    | reading request current =>
      have hp := h.phases i
      rw [hc] at hp
      cases request with
      | preview path password =>
        simp only [hc] at hs
        cases ho : previewConfigImport lib p current (s.files path) password with
        | error error =>
          simp only [ho,Option.some.injEq] at hs
          exact hs ▸ h.setIdle
        | ok preview =>
          simp only [ho,Option.some.injEq] at hs
          exact hs ▸ h.load_preview ho
      | apply path password expectedFileHash =>
        simp only [hc] at hs
        cases ho : importConfig lib p current (s.files path) password expectedFileHash with
        | error error =>
          simp only [ho,Option.some.injEq] at hs
          exact hs ▸ h.setIdle
        | ok merged =>
          simp only [ho,Option.map_eq_some_iff] at hs
          obtain ⟨store,hstore,rfl⟩ := hs
          exact h.load_import hp ho hstore
  | save l =>
    obtain ⟨i,l⟩ := l
    have hp := h.phases i
    cases hc : s.calls i with
    | reading request current => simp [step,hc] at hs
    | idle =>
      simp only [step,hc,Option.map_eq_some_iff] at hs
      obtain ⟨store,hstore,rfl⟩ := hs
      exact h.save hstore (by simp [hc])
    | saving record =>
      rw [hc] at hp
      cases l with
      | start config =>
        simp only [step,hc,Option.map_eq_some_iff] at hs
        obtain ⟨store,hstore,-⟩ := hs
        simp only [ConfigStore.step, Option.ite_none_right_eq_some] at hstore
        simp [PhaseOk,hstore.1,pending] at hp
      | write =>
        simp only [step,hc,Option.map_eq_some_iff] at hs
        obtain ⟨store,hstore,rfl⟩ := hs
        exact h.save hstore (fun _ _ => rfl)
      | writeFails content =>
        simp only [step,hc,Option.map_eq_some_iff] at hs
        obtain ⟨store,hstore,rfl⟩ := hs
        exact h.update (h.normal.step hstore) (store_frame hstore) trivial h.previews h.imports
      | apply =>
        simp only [step,hc,Option.map_eq_some_iff] at hs
        obtain ⟨store,hstore,rfl⟩ := hs
        refine h.update (h.normal.step hstore) (store_frame hstore) trivial h.previews
          (fun r hr => ?_)
        rcases List.mem_cons.mp hr with rfl | hr
        · exact hp.1
        · exact h.imports r hr

theorem initial_ok {file : Option String} {memory : AgentConfig}
    {files : String → Option String} (hn : memory.normalized = memory) :
    Inv lib p (initial file memory files) where
  normal := ⟨hn,by simp [initial,pending]⟩
  phases _ := trivial
  previews := by simp [initial]
  imports := by simp [initial]

theorem start_quiet {store : Store} {config : AgentConfig}
    (hs : ConfigStore.step p codec s.store (i,.start config) = some store) :
    store.memory = s.store.memory ∧ store.file = s.store.file := by
  obtain ⟨_,-,-,rfl | ⟨_,-,rfl⟩⟩ | ⟨_,he,-⟩ | ⟨_,_,he,-⟩ | ⟨_,_,he,-⟩ := ConfigStore.step_cases hs
  · exact ⟨rfl,rfl⟩
  · exact ⟨rfl,rfl⟩
  · cases he
  · cases he
  · cases he

/-- The reading half of a call, a failed one included, leaves the configuration alone. -/
theorem load_quiet (hs : step lib p codec s (.load i) = some t) :
    t.store.memory = s.store.memory ∧ t.store.file = s.store.file := by
  simp only [step] at hs
  split at hs
  · split at hs <;> cases hs <;> exact ⟨rfl,rfl⟩
  · split at hs
    · cases hs
      exact ⟨rfl,rfl⟩
    · obtain ⟨store,hstore,rfl⟩ := Option.map_eq_some_iff.mp hs
      exact start_quiet hstore
  · cases hs

/-- Only a save changes the configuration: one of another command, or one of an import
that has passed every check and is recorded when the memory is replaced. -/
theorem config_kept_or_saved (h : Inv lib p s) (l : Label) (hs : step lib p codec s l = some t) :
    (t.store.memory = s.store.memory ∧ t.store.file = s.store.file) ∨
    ∃ i k, l = .save (i,k) ∧ (s.calls i = .idle ∨ ∃ record, s.calls i = .saving record ∧
      Accepted lib p record ∧ (t.store.memory = s.store.memory ∨
        t.store.memory = record.saved ∧ t.imports = record::s.imports)) := by
  cases l with
  | modify path content =>
    cases hs
    exact Or.inl ⟨rfl,rfl⟩
  | begin i request =>
    simp only [step, Option.ite_none_right_eq_some, Option.some.injEq] at hs
    obtain ⟨-,rfl⟩ := hs
    exact Or.inl ⟨rfl,rfl⟩
  | load i => exact Or.inl (load_quiet hs)
  | save l =>
    obtain ⟨i,k⟩ := l
    refine Or.inr ⟨i,k,rfl,?_⟩
    have hp := h.phases i
    cases hc : s.calls i with
    | idle => exact Or.inl rfl
    | reading request current => simp [step,hc] at hs
    | saving record =>
      rw [hc] at hp
      refine Or.inr ⟨record,rfl,hp.1,?_⟩
      cases k with
      | apply =>
        simp only [step,hc,Option.map_eq_some_iff] at hs
        obtain ⟨store,hstore,rfl⟩ := hs
        rcases store_memory hstore with hm | ⟨-,hm⟩
        · exact Or.inl hm
        · rw [hp.2] at hm
          exact Or.inr ⟨(Option.some.inj hm).symm,rfl⟩
      | _ =>
        simp only [step,hc,Option.map_eq_some_iff] at hs
        obtain ⟨store,hstore,rfl⟩ := hs
        exact Or.inl ((store_memory hstore).resolve_right (by simp))

end Steps

/-- The contents that the recorded previews and imports were made from. -/
def involved (s : System) : List String :=
  s.previews.map Previewed.content ++ s.imports.map Imported.content

/-- An import that names the hash of a preview merges the payload that was previewed, and
what it changes is listed there. Nothing but a save that passed every check changes the
configuration. -/
theorem imported_is_previewed (file : Option String) (memory : AgentConfig)
    (files : String → Option String) (ls : List Label) (s : System)
    (hn : memory.normalized = memory)
    (hr : run (step lib p codec) ls (initial file memory files) = some s)
    (hsha : ∀ a ∈ involved s, ∀ b ∈ involved s, lib.sha256Hex a = lib.sha256Hex b → a = b) :
    (∀ shown ∈ s.previews, ∀ applied ∈ s.imports, applied.password = shown.password →
      applied.expectedFileHash = shown.preview.fileHash →
      ∃ payload, carried lib shown.content shown.password = .ok payload ∧
        previewPayload p shown.current payload = .ok { shown.preview with fileHash := "" } ∧
        carried lib applied.content applied.password = .ok payload ∧
        mergePayload p applied.current payload = .ok applied.saved ∧
        ∀ f : ConfigField, ¬f.Same applied.current applied.saved →
          ∃ item ∈ shown.preview.items, item.key = f.key) ∧
    ∀ l t, step lib p codec s l = some t →
      (t.store.memory = s.store.memory ∧ t.store.file = s.store.file) ∨
      ∃ i k, l = .save (i,k) ∧ (s.calls i = .idle ∨ ∃ record, s.calls i = .saving record ∧
        Accepted lib p record ∧ (t.store.memory = s.store.memory ∨
          t.store.memory = record.saved ∧ t.imports = record::s.imports)) := by
  have h : Inv lib p s := run_invariant (step lib p codec) (Inv lib p) import_step_inv ls _ s
    (initial_ok hn) hr
  refine ⟨fun shown hshown applied happlied hpass hhash => ?_,fun l t => config_kept_or_saved h l⟩
  obtain ⟨text,payload,htext,hcarried,hfile,hpreview⟩ :=
    previewConfigImport_ok (h.previews shown hshown)
  obtain rfl := Option.some.inj htext
  obtain ⟨hnormal,merged,himport,hchecked⟩ := h.imports applied happlied
  obtain ⟨text,other,htext,hcarried',hfile',hmerge⟩ := importConfig_ok himport
  obtain rfl := Option.some.inj htext
  obtain rfl := checkConfig_merged hmerge hchecked
  have hcontent : applied.content = shown.content := by
    refine hsha _ ?_ _ ?_ (hfile'.trans (hhash.trans hfile))
    · exact List.mem_append_right _ (List.mem_map_of_mem happlied)
    · exact List.mem_append_left _ (List.mem_map_of_mem hshown)
  obtain rfl : other = payload := by
    rw [hcontent,hpass,hcarried] at hcarried'
    exact (Except.ok.inj hcarried').symm
  refine ⟨other,hcarried,hpreview,hcarried',hmerge,fun f hf => ?_⟩
  unfold previewPayload at hpreview
  split at hpreview
  · cases hpreview
  · rename_i next hnext
    have hitems : previewItems shown.current next other.config = shown.preview.items :=
      congrArg ImportPreview.items (Except.ok.inj hpreview)
    rw [← hitems]
    exact changed_field_listed hnormal hmerge f hf

/-- The exported file of the test vector. -/
def vectorText : String :=
  "\x7b\n  \"format\": \"yinshu-config-encrypted\",\n  \"version\": 1,\n" ++
  "  \"crypto\": \x7b\n    \"kdf\": \"argon2id13\",\n    \"memory_kib\": 19456,\n" ++
  "    \"iterations\": 2,\n    \"parallelism\": 1,\n    \"cipher\": \"aes-256-gcm\",\n" ++
  "    \"tag_bytes\": 16,\n    \"salt\": \"AAECAwQFBgcICQoLDA0ODw==\",\n" ++
  "    \"nonce\": \"EBESExQVFhcYGRob\"\n  \x7d,\n" ++
  "  \"payload\": \"OTX3vkYug76bv33wsWKAu9k2ZAC15kP0J/sjtR4W/hYN8NtYI35R1lDtsdyMNstmY6At" ++
  "PHVwTJULwKUt6yiZNsKNcFGFt5gyRy85Yk88Y8NBOUEzskxVNfxX\"\n\x7d"

def vectorHash : String := "b03aa125e16ffb3f53fdfdb2f33b46817cf16769bb8bcec01f1863411497a50f"

def importLib : Primitives := { vectorLib with
  fileFromStr := fun content => if content = vectorText then
    some (envelope vectorLib vectorSalt vectorNonce vectorCiphertext) else none
  sha256Hex := fun content => if content = vectorText then vectorHash else "" }

/-- The file is previewed on an agent with another port and then imported. -/
def previewThenImport : List Label :=
  [.begin 0 (.preview "backup.json" "test-password"),.load 0,
    .begin 0 (.apply "backup.json" "test-password" vectorHash),.load 0,.save (0,.write),
    .save (0,.apply)]

def vectorSystem : System := initial none (portConfig 19090)
  (fun path => if path = "backup.json" then some vectorText else none)

theorem previewThenImport_runs :
    (run (step importLib noParsers portCodec) previewThenImport vectorSystem).isSome = true := by
  decide +kernel

def importedSystem : System :=
  (run (step importLib noParsers portCodec) previewThenImport vectorSystem).get
    previewThenImport_runs

theorem imported_is_previewed_vector : ∃ shown ∈ importedSystem.previews,
    ∃ applied ∈ importedSystem.imports, applied.saved = portConfig 17890 ∧
      ∀ f : ConfigField, ¬f.Same applied.current applied.saved →
        ∃ item ∈ shown.preview.items, item.key = f.key := by
  have h := imported_is_previewed importLib noParsers portCodec none (portConfig 19090)
    vectorSystem.files previewThenImport importedSystem (by decide)
    (Option.some_get previewThenImport_runs).symm (by decide +kernel)
  have hrequests : (importedSystem.previews.map (fun r => (r.password,r.preview.fileHash)),
      importedSystem.imports.map (fun r => (r.password,r.expectedFileHash,r.saved))) =
      ([("test-password",vectorHash)],[("test-password",vectorHash,portConfig 17890)]) := by
    decide +kernel
  obtain ⟨hpreviews,himports⟩ := Prod.mk.inj hrequests
  obtain ⟨shown,hshown,hs⟩ := List.map_eq_singleton_iff.mp hpreviews
  obtain ⟨applied,happlied,ha⟩ := List.map_eq_singleton_iff.mp himports
  simp only [Prod.mk.injEq] at hs ha
  obtain ⟨payload,-,-,-,-,hf⟩ := h.1 shown (by simp [hshown]) applied (by simp [happlied])
    (ha.1.trans hs.1.symm) (ha.2.1.trans hs.2.symm)
  exact ⟨shown,by simp [hshown],applied,by simp [happlied],ha.2.2,hf⟩

end YinShu.ConfigImport
