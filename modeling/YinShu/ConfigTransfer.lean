import YinShu.FunctionalCommand
import YinShu.ConfigCommands

/-!
# Export and import of settings

A selection of settings is written to a payload, the payload is encrypted
under a password, and an import merges it into another configuration. The key
derivation, the cipher, base64 and JSON come from libraries; `Lawful` states
what is relied on. What one machine exports is what the other one merges.
-/

set_option autoImplicit false

namespace YinShu.ConfigTransfer
open YinShu.Protocol YinShu.Settings YinShu.ConfigStore YinShu.ConfigCommands
open YinShu.FunctionalCommand

abbrev Bytes := List UInt8

def encryptedFormat : String := "yinshu-config-encrypted"
def saltLen : ℕ := 16
def nonceLen : ℕ := 12
def keyLen : ℕ := 32
def argon2MemoryKib : UInt32 := 19456
def argon2Iterations : UInt32 := 2
def argon2Parallelism : UInt32 := 1
def gcmTagBytes : UInt8 := 16

abbrev Salt := Vector UInt8 saltLen
abbrev Nonce := Vector UInt8 nonceLen
abbrev Key := Vector UInt8 keyLen

structure CryptoMetadata where
  kdf : String
  memoryKib : UInt32
  iterations : UInt32
  parallelism : UInt32
  cipher : String
  tagBytes : UInt8
  salt : String
  nonce : String
  deriving DecidableEq, Repr

structure EncryptedConfigFile where
  format : String
  version : UInt16
  crypto : CryptoMetadata
  payload : String
  deriving DecidableEq, Repr

inductive ConfigTransferError where
  | invalidFile
  | invalidPasswordOrPayload
  | serialize
  | invalidField (message : String)
  deriving DecidableEq, Repr

def ConfigTransferError.message : ConfigTransferError → String
  | .invalidFile => "不是有效的 YinShu 配置文件"
  | .invalidPasswordOrPayload => "密码错误或文件损坏"
  | .serialize => "配置导出失败"
  | .invalidField message => message

/-- The library functions behind a transfer. -/
structure Primitives where
  argon2Params : UInt32 → UInt32 → UInt32 → Bool
  hashPasswordInto : String → Salt → Option Key
  encrypt : Key → Nonce → Bytes → Option Bytes
  decrypt : Key → Nonce → Bytes → Option Bytes
  base64Encode : Bytes → String
  base64Decode : String → Option Bytes
  payloadToVec : ConfigTransferPayload → Option Bytes
  payloadFromSlice : Bytes → Option ConfigTransferPayload
  fileFromStr : String → Option EncryptedConfigFile
  sha256Hex : String → String

/-- What one transfer relies on: the key derivation and the cipher succeed, decryption
inverts encryption, and the encodings read back what they write. -/
structure Lawful (lib : Primitives) (payload : ConfigTransferPayload) (password : String)
    (salt : Salt) (nonce : Nonce) (key : Key) (plaintext ciphertext : Bytes) : Prop where
  params : lib.argon2Params argon2MemoryKib argon2Iterations argon2Parallelism = true
  derives : lib.hashPasswordInto password salt = some key
  writes : lib.payloadToVec payload = some plaintext
  reads : lib.payloadFromSlice plaintext = some payload
  encrypts : lib.encrypt key nonce plaintext = some ciphertext
  decrypts : lib.decrypt key nonce ciphertext = some plaintext
  base64 : ∀ bytes ∈ [salt.toList,nonce.toList,ciphertext],
    lib.base64Decode (lib.base64Encode bytes) = some bytes

def buildTransferPayload (config : AgentConfig) (options : ExportConfigOptions) :
    ConfigTransferPayload where
  format := payloadFormat
  version := transferVersion
  config :=
    { service := if options.servicePort then some { port := some config.service.port } else none
      security :=
        if options.allowedOrigins || options.allowedIps then some
          { allowedOrigins :=
              if options.allowedOrigins then some config.security.allowedOrigins else none
            allowedIps := if options.allowedIps then some config.security.allowedIps else none }
        else none }

variable (lib : Primitives)

def deriveKey (password : String) (salt : Salt) : Except ConfigTransferError Key :=
  if !lib.argon2Params argon2MemoryKib argon2Iterations argon2Parallelism then .error .serialize
  else match lib.hashPasswordInto password salt with
    | none => .error .invalidPasswordOrPayload
    | some key => .ok key

/-- The envelope that `encrypt_payload_with` puts around a ciphertext. -/
def envelope (salt : Salt) (nonce : Nonce) (ciphertext : Bytes) : EncryptedConfigFile where
  format := encryptedFormat
  version := transferVersion
  crypto :=
    { kdf := "argon2id13"
      memoryKib := argon2MemoryKib
      iterations := argon2Iterations
      parallelism := argon2Parallelism
      cipher := "aes-256-gcm"
      tagBytes := gcmTagBytes
      salt := lib.base64Encode salt.toList
      nonce := lib.base64Encode nonce.toList }
  payload := lib.base64Encode ciphertext

def encryptPayloadWith (payload : ConfigTransferPayload) (password : String) (salt : Salt)
    (nonce : Nonce) : Except ConfigTransferError EncryptedConfigFile :=
  match deriveKey lib password salt with
  | .error error => .error error
  | .ok key =>
    match lib.payloadToVec payload with
    | none => .error .serialize
    | some plaintext =>
      match lib.encrypt key nonce plaintext with
      | none => .error .serialize
      | some ciphertext => .ok (envelope lib salt nonce ciphertext)

def validateEnvelope (file : EncryptedConfigFile) : Except ConfigTransferError Unit :=
  if file.format ≠ encryptedFormat ∨ file.version ≠ transferVersion ∨
      file.crypto.kdf ≠ "argon2id13" ∨ file.crypto.memoryKib ≠ argon2MemoryKib ∨
      file.crypto.iterations ≠ argon2Iterations ∨
      file.crypto.parallelism ≠ argon2Parallelism ∨ file.crypto.cipher ≠ "aes-256-gcm" ∨
      file.crypto.tagBytes ≠ gcmTagBytes then .error .invalidFile
  else .ok ()

def decodeFixed (n : ℕ) (value : String) : Except ConfigTransferError (Vector UInt8 n) :=
  match lib.base64Decode value with
  | none => .error .invalidPasswordOrPayload
  | some bytes =>
    if h : bytes.length = n then .ok ⟨bytes.toArray,by simpa using h⟩
    else .error .invalidPasswordOrPayload

/-- The part of `decrypt_payload` behind the decoded envelope. -/
def openPayload (password : String) (salt : Salt) (nonce : Nonce) (ciphertext : Bytes) :
    Except ConfigTransferError ConfigTransferPayload :=
  match deriveKey lib password salt with
  | .error error => .error error
  | .ok key =>
    match lib.decrypt key nonce ciphertext with
    | none => .error .invalidPasswordOrPayload
    | some plaintext =>
      match lib.payloadFromSlice plaintext with
      | none => .error .invalidPasswordOrPayload
      | some payload =>
        match validatePayload payload with
        | .error _ => .error .invalidFile
        | .ok _ => .ok payload

def decryptPayload (file : EncryptedConfigFile) (password : String) :
    Except ConfigTransferError ConfigTransferPayload :=
  match validateEnvelope file with
  | .error error => .error error
  | .ok _ =>
    match decodeFixed lib saltLen file.crypto.salt with
    | .error error => .error error
    | .ok salt =>
      match decodeFixed lib nonceLen file.crypto.nonce with
      | .error error => .error error
      | .ok nonce =>
        match lib.base64Decode file.payload with
        | none => .error .invalidPasswordOrPayload
        | some ciphertext => openPayload lib password salt nonce ciphertext

/-- The configuration with the selected settings of the source in their normal form. -/
def restored (current source : AgentConfig) (options : ExportConfigOptions) : AgentConfig :=
  { current.normalized with
    service := { current.normalized.service with
      port := if options.servicePort then source.service.port else current.service.port }
    security :=
      ⟨if options.allowedOrigins then source.security.allowedOrigins
        else current.security.allowedOrigins,
      if options.allowedIps then normalizeAllowedIps source.security.allowedIps
        else normalizeAllowedIps current.security.allowedIps⟩ }

section RoundTrip

variable {lib}

theorem decodeFixed_encode {n : ℕ} (value : Vector UInt8 n)
    (h : lib.base64Decode (lib.base64Encode value.toList) = some value.toList) :
    decodeFixed lib n (lib.base64Encode value.toList) = .ok value := by
  have harray : value.toList.toArray = value.toArray := rfl
  simp [decodeFixed,h,harray]

theorem Lawful.deriveKey_ok {payload : ConfigTransferPayload} {password : String} {salt : Salt}
    {nonce : Nonce} {key : Key} {plaintext ciphertext : Bytes}
    (h : Lawful lib payload password salt nonce key plaintext ciphertext) :
    deriveKey lib password salt = .ok key := by
  simp [deriveKey,h.params,h.derives]

theorem decrypt_encrypted {payload : ConfigTransferPayload} {password : String} {salt : Salt}
    {nonce : Nonce} {key : Key} {plaintext ciphertext : Bytes}
    (h : Lawful lib payload password salt nonce key plaintext ciphertext)
    (hp : validatePayload payload = .ok ()) :
    ∃ file, encryptPayloadWith lib payload password salt nonce = .ok file ∧
      decryptPayload lib file password = .ok payload := by
  refine ⟨envelope lib salt nonce ciphertext,
    by simp [encryptPayloadWith,h.deriveKey_ok,h.writes,h.encrypts],?_⟩
  have hopen : openPayload lib password salt nonce ciphertext = .ok payload := by
    simp [openPayload,h.deriveKey_ok,h.decrypts,h.reads,hp]
  have hsalt := decodeFixed_encode salt (h.base64 _ (by simp))
  have hnonce := decodeFixed_encode nonce (h.base64 _ (by simp))
  simp [decryptPayload,validateEnvelope,envelope,hsalt,hnonce,h.base64 ciphertext (by simp),hopen]

end RoundTrip

section Merging

variable (current source : AgentConfig) (options : ExportConfigOptions)

theorem buildTransferPayload_port : (buildTransferPayload source options).config.port =
    if options.servicePort then some source.service.port else none := by
  cases hp : options.servicePort <;> simp [buildTransferPayload,PartialTransferConfig.port,hp]

theorem buildTransferPayload_origins :
    (buildTransferPayload source options).config.allowedOrigins =
      if options.allowedOrigins then some source.security.allowedOrigins else none := by
  cases ho : options.allowedOrigins <;> cases hi : options.allowedIps <;>
    simp [buildTransferPayload,PartialTransferConfig.allowedOrigins,ho,hi]

theorem buildTransferPayload_ips : (buildTransferPayload source options).config.allowedIps =
    if options.allowedIps then some source.security.allowedIps else none := by
  cases ho : options.allowedOrigins <;> cases hi : options.allowedIps <;>
    simp [buildTransferPayload,PartialTransferConfig.allowedIps,ho,hi]

variable {p : Parsers}

theorem checkConfig_ok {config checked : AgentConfig} (h : checkConfig p config = .ok checked) :
    (∀ origin ∈ config.security.allowedOrigins, validateOrigin p origin = .ok ()) ∧
      ∀ entry ∈ config.security.allowedIps, validateAllowedIpEntry p entry = .ok () := by
  unfold checkConfig at h
  split at h
  · cases h
  · rename_i ho
    split at h
    · cases h
    · rename_i hi
      refine ⟨fun origin hm => ?_,(checkAll_ok _ _).mp hi⟩
      have hv := (checkAll_ok _ _).mp ho origin hm
      cases hx : validateOrigin p origin with
      | error error => simp [hx,Except.mapError] at hv
      | ok u => rfl

/-- The payload of a configuration that could be saved is merged without an error. -/
theorem mergePayload_built {checked : AgentConfig} (hs : checkConfig p source = .ok checked)
    (hport : source.service.port ≠ 0) :
    ∃ next, mergePayload p current (buildTransferPayload source options) = .ok next := by
  obtain ⟨horigins,hips⟩ := checkConfig_ok hs
  have hp : ∀ next, ∃ after,
      mergePort (buildTransferPayload source options).config next = .ok after := by
    intro next
    unfold mergePort
    rw [buildTransferPayload_port]
    cases options.servicePort <;> simp [hport]
  have ho : ∀ next, ∃ after,
      mergeOrigins p (buildTransferPayload source options).config next = .ok after := by
    intro next
    unfold mergeOrigins
    rw [buildTransferPayload_origins]
    cases options.allowedOrigins with
    | false => exact ⟨next,rfl⟩
    | true =>
      have hall := (checkAll_ok (fun origin => (validateOrigin p origin).mapError
        (fun _ => "Origin 无效: " ++ origin)) source.security.allowedOrigins).mpr
        (fun origin hm => by simp [horigins origin hm,Except.mapError])
      simp [hall]
  have hi : ∀ next, ∃ after,
      mergeIps p (buildTransferPayload source options).config next = .ok after := by
    intro next
    unfold mergeIps
    rw [buildTransferPayload_ips]
    cases options.allowedIps with
    | false => exact ⟨next,rfl⟩
    | true =>
      have hall := (checkAll_ok (validateAllowedIpEntry p) source.security.allowedIps).mpr hips
      simp [hall]
  have hv : validatePayload (buildTransferPayload source options) = .ok () := rfl
  obtain ⟨c,hc⟩ := hp current
  obtain ⟨d,hd⟩ := ho c
  obtain ⟨e,he⟩ := hi d
  exact ⟨e.normalized,by simp [mergePayload,hv,hc,hd,he]⟩

end Merging

/-- What is exported under a password is what an import decrypts with it, and the
merge replaces the selected settings and nothing else. -/
theorem export_import_restores (lib : Primitives) (p : Parsers)
    (current source checked : AgentConfig) (options : ExportConfigOptions) (password : String)
    (salt : Salt) (nonce : Nonce) (key : Key) (plaintext ciphertext : Bytes)
    (hl : Lawful lib (buildTransferPayload source options) password salt nonce key plaintext
      ciphertext)
    (hs : checkConfig p source = .ok checked) (hport : source.service.port ≠ 0) :
    (∃ file, encryptPayloadWith lib (buildTransferPayload source options) password salt nonce =
        .ok file ∧
      decryptPayload lib file password = .ok (buildTransferPayload source options)) ∧
    mergePayload p current (buildTransferPayload source options) =
      .ok (restored current source options) := by
  refine ⟨decrypt_encrypted hl rfl,?_⟩
  obtain ⟨next,hn⟩ := mergePayload_built current source options hs hport
  rw [hn,mergePayload_ok hn,buildTransferPayload_port,buildTransferPayload_origins,
    buildTransferPayload_ips]
  unfold restored AgentConfig.normalized
  cases options.servicePort <;> cases options.allowedOrigins <;> cases options.allowedIps <;> rfl

def vectorSalt : Salt := #v[0,1,2,3,4,5,6,7,8,9,10,11,12,13,14,15]

def vectorNonce : Nonce := #v[0x10,0x11,0x12,0x13,0x14,0x15,0x16,0x17,0x18,0x19,0x1a,0x1b]

/-- The key that Argon2 derives from `test-password` and the salt. -/
def vectorKey : Key := #v[
  186,16,178,164,178,20,68,123,239,167,103,236,22,129,141,5,61,117,57,240,97,156,196,232,100,
  118,119,226,199,39,219,159]

def vectorPlaintext : Bytes := [
  123,34,102,111,114,109,97,116,34,58,34,121,105,110,115,104,117,45,99,111,110,102,105,103,34,
  44,34,118,101,114,115,105,111,110,34,58,49,44,34,99,111,110,102,105,103,34,58,123,34,115,101,
  114,118,105,99,101,34,58,123,34,112,111,114,116,34,58,49,55,56,57,48,125,125,125]

def vectorCiphertext : Bytes := [
  57,53,247,190,70,46,131,190,155,191,125,240,177,98,128,187,217,54,100,0,181,230,67,244,39,251,
  35,181,30,22,254,22,13,240,219,88,35,126,81,214,80,237,177,220,140,54,203,102,99,160,45,60,
  117,112,76,149,11,192,165,45,235,40,153,54,194,141,112,81,133,183,152,50,71,47,57,98,79,60,99,
  195,65,57,65,51,178,76,85,53,252,87]

def vectorOptions : ExportConfigOptions := ⟨true,false,false⟩

def vectorPayload : ConfigTransferPayload :=
  ⟨"yinshu-config",1,{ service := some { port := some 17890 } }⟩

/-- The libraries on the test vector of the repository. -/
def vectorLib : Primitives where
  argon2Params memory iterations parallelism :=
    memory = 19456 ∧ iterations = 2 ∧ parallelism = 1
  hashPasswordInto password salt :=
    if password = "test-password" ∧ salt = vectorSalt then some vectorKey else none
  encrypt key nonce plaintext :=
    if key = vectorKey ∧ nonce = vectorNonce ∧ plaintext = vectorPlaintext then
      some vectorCiphertext else none
  decrypt key nonce ciphertext :=
    if key = vectorKey ∧ nonce = vectorNonce ∧ ciphertext = vectorCiphertext then
      some vectorPlaintext else none
  base64Encode bytes :=
    if bytes = vectorSalt.toList then "AAECAwQFBgcICQoLDA0ODw=="
    else if bytes = vectorNonce.toList then "EBESExQVFhcYGRob"
    else "OTX3vkYug76bv33wsWKAu9k2ZAC15kP0J/sjtR4W/hYN8NtYI35R1lDtsdyMNstmY6AtPHVwTJULwKUt" ++
      "6yiZNsKNcFGFt5gyRy85Yk88Y8NBOUEzskxVNfxX"
  base64Decode text :=
    if text = "AAECAwQFBgcICQoLDA0ODw==" then some vectorSalt.toList
    else if text = "EBESExQVFhcYGRob" then some vectorNonce.toList
    else some vectorCiphertext
  payloadToVec payload := if payload = vectorPayload then some vectorPlaintext else none
  payloadFromSlice bytes := if bytes = vectorPlaintext then some vectorPayload else none
  fileFromStr := fun _ => none
  sha256Hex := fun _ => ""

theorem vectorLib_lawful : Lawful vectorLib
    (buildTransferPayload AgentConfig.default vectorOptions) "test-password" vectorSalt
    vectorNonce vectorKey vectorPlaintext vectorCiphertext := by
  constructor <;> decide

theorem export_import_restores_port :
    (∃ file, encryptPayloadWith vectorLib
        (buildTransferPayload AgentConfig.default vectorOptions) "test-password" vectorSalt
        vectorNonce = .ok file ∧ decryptPayload vectorLib file "test-password" =
        .ok (buildTransferPayload AgentConfig.default vectorOptions)) ∧
    mergePayload noParsers (portConfig 19090)
      (buildTransferPayload AgentConfig.default vectorOptions) = .ok (portConfig 17890) :=
  export_import_restores vectorLib noParsers (portConfig 19090) AgentConfig.default
    AgentConfig.default vectorOptions "test-password" vectorSalt vectorNonce vectorKey
    vectorPlaintext vectorCiphertext vectorLib_lawful (by decide) (by decide)

end YinShu.ConfigTransfer
