import YinShu.Protocol

/-!
# The agent configuration

The persisted settings, their normal form and the checks made before they
are saved. The JSON codec is a parameter: one function writes a configuration
and one reads a text back. Normalization is idempotent, so that what a save
writes is read back unchanged by the normalizing loader.
-/

set_option autoImplicit false

namespace YinShu.Settings
open YinShu.TextScan YinShu.InternetAddress YinShu.Protocol

structure ServiceConfig where
  host : String
  port : UInt16
  deriving DecidableEq, Repr

structure SecurityConfig where
  allowedOrigins : List String
  allowedIps : List String
  deriving DecidableEq, Repr

structure PrintingConfig where
  defaultPrinter : Option String
  defaultPaper : Option EffectivePaper
  defaultCopies : UInt16
  deriving DecidableEq, Repr

structure LimitsConfig where
  maxFileSizeMb : UInt64
  maxBatchJobs : ℕ
  maxCopies : UInt16
  downloadTimeoutSeconds : UInt64
  deriving DecidableEq, Repr

inductive UiLanguage where
  | zhCn
  | en
  deriving DecidableEq, Repr

structure AppConfig where
  autostart : Bool
  language : UiLanguage
  deriving DecidableEq, Repr

structure AgentConfig where
  service : ServiceConfig
  security : SecurityConfig
  printing : PrintingConfig
  limits : LimitsConfig
  app : AppConfig
  deriving DecidableEq, Repr

def defaultPort : UInt16 := 17890
def minServicePort : UInt16 := 10000
def maxServicePort : UInt16 := 65535
def requiredLoopbackIp : String := "127.0.0.1"

def AgentConfig.default : AgentConfig where
  service := ⟨"127.0.0.1",defaultPort⟩
  security := ⟨[],[requiredLoopbackIp]⟩
  printing := ⟨none,none,1⟩
  limits := ⟨20,20,100,30⟩
  app := ⟨false,.zhCn⟩

def normalizeEntries : List String → List String → List String
  | [], normalized => normalized
  | entry::entries, normalized =>
    if trim entry = "" ∨ trim entry = requiredLoopbackIp then normalizeEntries entries normalized
    else if trim entry ∈ normalized then normalizeEntries entries normalized
    else normalizeEntries entries (normalized++[trim entry])

def normalizeAllowedIps (entries : List String) : List String :=
  normalizeEntries entries [requiredLoopbackIp]

def validateAllowedIpEntry (p : Parsers) (entry : String) : Except String Unit :=
  let entry := trim entry
  if entry = "" then .error "IP 白名单不能为空"
  else if entry = "0.0.0.0" ∨ entry = "::" ∨ entry = "0.0.0.0/0" ∨ entry = "::/0" then
    .error "不能使用任意地址作为 IP 白名单项"
  else if '/' ∈ entry.toList then
    match p.ipNet entry with
    | none => .error ("IP 或网段无效: " ++ entry)
    | some net =>
      if net.prefixLen = 0 then .error "不能使用任意地址作为 IP 白名单项" else .ok ()
  else match parseIpAddr entry with
    | none => .error ("IP 或网段无效: " ++ entry)
    | some _ => .ok ()

def AgentConfig.normalized (config : AgentConfig) : AgentConfig := { config with
  service := { config.service with host := "127.0.0.1" }
  security := { config.security with
    allowedIps := normalizeAllowedIps config.security.allowedIps } }

/-- The checks at the head of `AgentState::save_config`, with the text of the
input error they raise, and the normal form that is saved when they pass. -/
def checkConfig (p : Parsers) (config : AgentConfig) : Except String AgentConfig :=
  match checkAll (fun origin => (validateOrigin p origin).mapError ProtocolError.message)
      config.security.allowedOrigins with
  | .error error => .error error
  | .ok _ =>
    match checkAll (validateAllowedIpEntry p) config.security.allowedIps with
    | .error error => .error error
    | .ok _ => .ok config.normalized

structure ConfigCodec where
  encode : AgentConfig → String
  decode : String → Option AgentConfig

/-- `AgentConfig::load`: an absent file is the first-run configuration. -/
def load (codec : ConfigCodec) : Option String → Option AgentConfig
  | none => some AgentConfig.default
  | some content => (codec.decode content).map AgentConfig.normalized

/-- The text that `AgentConfig::save` writes. -/
def savedText (codec : ConfigCodec) (config : AgentConfig) : String :=
  codec.encode config.normalized

/-- A list that the loop would leave alone: already trimmed, without blanks and
without a second copy of the loopback entry. -/
def Settled (entries : List String) : Prop :=
  ∀ entry ∈ entries, trim entry = entry ∧ entry ≠ "" ∧ entry ≠ requiredLoopbackIp

theorem normalizeEntries_settled (entries normalized : List String)
    (h : Settled normalized.tail) (hn : normalized.head? = some requiredLoopbackIp)
    (hd : normalized.Nodup) :
    ∃ rest, normalizeEntries entries normalized = requiredLoopbackIp::rest ∧ Settled rest ∧
      (requiredLoopbackIp::rest).Nodup := by
  induction entries generalizing normalized with
  | nil =>
    obtain ⟨rest,rfl⟩ : ∃ rest, normalized = requiredLoopbackIp::rest := by
      cases normalized with
      | nil => simp at hn
      | cons a rest => exact ⟨rest,by simpa using hn⟩
    exact ⟨rest,rfl,h,hd⟩
  | cons entry entries ih =>
    unfold normalizeEntries
    split_ifs with hblank hseen
    · exact ih normalized h hn hd
    · exact ih normalized h hn hd
    · apply ih
      · intro e he
        rw [List.tail_append_of_ne_nil (by rintro rfl; simp at hn)] at he
        rcases List.mem_append.mp he with he | he
        · exact h e he
        · rw [List.mem_singleton.mp he]
          exact ⟨trim_idempotent entry,fun hb => hblank (Or.inl hb),fun hb => hblank (Or.inr hb)⟩
      · cases normalized with
        | nil => simp at hn
        | cons a rest => simpa using hn
      · exact List.nodup_append.mpr ⟨hd,by simp,by
          rintro a ha b hb rfl
          rw [List.mem_singleton.mp hb] at ha
          exact hseen ha⟩

theorem mem_normalizeEntries (entry : String) (entries normalized : List String) :
    entry ∈ normalizeEntries entries normalized ↔ entry ∈ normalized ∨
      ∃ e ∈ entries, trim e = entry ∧ entry ≠ "" ∧ entry ≠ requiredLoopbackIp := by
  induction entries generalizing normalized with
  | nil => simp [normalizeEntries]
  | cons e entries ih =>
    unfold normalizeEntries
    split_ifs with hblank hseen
    · rw [ih]
      refine or_congr_right ⟨fun ⟨x,hx,h⟩ => ⟨x,by simp [hx],h⟩,?_⟩
      rintro ⟨x,hx,rfl,hne⟩
      rcases List.mem_cons.mp hx with rfl | hx
      · exact absurd hblank (by simp [hne])
      · exact ⟨x,hx,rfl,hne⟩
    · rw [ih]
      constructor
      · rintro (h | ⟨x,hx,h⟩)
        · exact Or.inl h
        · exact Or.inr ⟨x,by simp [hx],h⟩
      · rintro (h | ⟨x,hx,rfl,hne⟩)
        · exact Or.inl h
        · rcases List.mem_cons.mp hx with rfl | hx
          · exact Or.inl hseen
          · exact Or.inr ⟨x,hx,rfl,hne⟩
    · rw [ih,List.mem_append,List.mem_singleton]
      constructor
      · rintro ((h | rfl) | ⟨x,hx,h⟩)
        · exact Or.inl h
        · exact Or.inr ⟨e,by simp,rfl,by simpa using hblank⟩
        · exact Or.inr ⟨x,by simp [hx],h⟩
      · rintro (h | ⟨x,hx,rfl,hne⟩)
        · exact Or.inl (Or.inl h)
        · rcases List.mem_cons.mp hx with rfl | hx
          · exact Or.inl (Or.inr rfl)
          · exact Or.inr ⟨x,hx,rfl,hne⟩

theorem mem_normalizeAllowedIps (entry : String) (entries : List String) :
    entry ∈ normalizeAllowedIps entries ↔ entry = requiredLoopbackIp ∨
      ∃ e ∈ entries, trim e = entry ∧ entry ≠ "" := by
  rw [normalizeAllowedIps,mem_normalizeEntries,List.mem_singleton]
  constructor
  · rintro (h | ⟨e,he,ht,hne,-⟩)
    · exact Or.inl h
    · exact Or.inr ⟨e,he,ht,hne⟩
  · rintro (h | ⟨e,he,ht,hne⟩)
    · exact Or.inl h
    · by_cases hr : entry = requiredLoopbackIp
      · exact Or.inl hr
      · exact Or.inr ⟨e,he,ht,hne,hr⟩

theorem normalizeEntries_append (entries normalized : List String) (h : Settled entries)
    (hd : (normalized++entries).Nodup) :
    normalizeEntries entries normalized = normalized++entries := by
  induction entries generalizing normalized with
  | nil => simp [normalizeEntries]
  | cons entry entries ih =>
    obtain ⟨ht,hb,hl⟩ := h entry (by simp)
    have hnot : entry ∉ normalized := by
      intro hm
      have := (List.nodup_append.mp hd).2.2 entry hm entry (by simp)
      exact this rfl
    unfold normalizeEntries
    rw [ht,if_neg (by simp [hb,hl]),if_neg hnot,
      ih _ (fun e he => h e (by simp [he])) (by simpa using hd)]
    simp

theorem normalizeAllowedIps_idempotent (entries : List String) :
    normalizeAllowedIps (normalizeAllowedIps entries) = normalizeAllowedIps entries := by
  obtain ⟨rest,hr,hs,hd⟩ := normalizeEntries_settled entries [requiredLoopbackIp]
    (by simp [Settled]) rfl (by simp)
  have htrim : trim requiredLoopbackIp = requiredLoopbackIp := by decide
  rw [normalizeAllowedIps,normalizeAllowedIps,hr]
  conv_lhs => unfold normalizeEntries
  rw [if_pos (Or.inr htrim),normalizeEntries_append rest _ hs (by simpa using hd)]
  rfl

theorem normalized_idempotent (config : AgentConfig) :
    config.normalized.normalized = config.normalized := by
  simp [AgentConfig.normalized, normalizeAllowedIps_idempotent]

end YinShu.Settings
