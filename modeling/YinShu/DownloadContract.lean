import Mathlib.Algebra.GroupWithZero.Nat
import Mathlib.Data.UInt
import YinShu.Download
import YinShu.TextPieces

/-!
# The contract of a download

The whole body is stored, or nothing. The running total and the byte limit are
both 64-bit numbers that saturate, so a saturated limit is no limit. Apart from
that, a download fails as too large exactly when the announced length, a prefix
of the body or the decoded data URL is over the limit and nothing else went
wrong before. A data URL of a PDF yields the bytes it encodes.
-/

set_option autoImplicit false

namespace YinShu.DownloadContract
open YinShu.TextScan YinShu.TextPieces YinShu.WebUrl YinShu.Protocol YinShu.Settings
open YinShu.ErrorState YinShu.FileStore YinShu.TempFile YinShu.Download

/-- More than the limit, which is a limit only below the largest 64-bit number. -/
def Exceeds (limit size : ℕ) : Prop := limit < size ∧ limit < 2^64-1

def sizeOf (chunks : List Chunk) : ℕ := (chunks.map (fun chunk => chunk.bytes.length)).sum

def bodyOf (chunks : List Chunk) : Bytes := chunks.flatMap Chunk.bytes

/-- A prefix of the body is over the limit, and all of it but its last chunk has been
written. -/
def OverLimit (limit : ℕ) (stream : List (Except String Chunk)) (before : ℕ) : Prop :=
  ∃ front chunk rest, stream = front.map .ok++.ok chunk::rest ∧
    (∀ c ∈ front, c.written = none) ∧ Exceeds limit (before+sizeOf (front++[chunk]))

section Loop

variable {limit : ℕ} {stream : List (Except String Chunk)} {chunk : Chunk} {before n : ℕ}

theorem exceeds_iff : Exceeds limit n ↔ limit < min n (2^64-1) :=
  Nat.lt_min.symm

/-- Saturating early or late makes no difference. -/
theorem exceeds_saturated (limit m n : ℕ) :
    Exceeds limit (min m (2^64-1)+n) ↔ Exceeds limit (m+n) := by
  unfold Exceeds
  omega

theorem overLimit_nil : ¬OverLimit limit [] before := by
  rintro ⟨front,chunk,rest,h,-⟩
  simp at h

theorem overLimit_error {error : String} : ¬OverLimit limit (.error error::stream) before := by
  rintro ⟨front,chunk,rest,h,-⟩
  cases front <;> simp at h

theorem overLimit_cons : OverLimit limit (.ok chunk::stream) before ↔
    Exceeds limit (before+chunk.bytes.length) ∨
      (chunk.written = none ∧
        OverLimit limit stream (min (before+chunk.bytes.length) (2^64-1))) := by
  constructor
  · rintro ⟨front,last,rest,h,hw,he⟩
    cases front with
    | nil =>
      obtain ⟨hc,-⟩ := List.cons.inj h
      cases hc
      exact Or.inl (by simpa [sizeOf] using he)
    | cons c front =>
      obtain ⟨hc,ht⟩ := List.cons.inj h
      cases hc
      refine Or.inr ⟨hw _ (by simp),front,last,rest,ht,fun c hc => hw c (by simp [hc]),?_⟩
      rw [exceeds_saturated]
      simpa [sizeOf,Nat.add_assoc] using he
  · rintro (he | ⟨hw,front,last,rest,rfl,hf,he⟩)
    · exact ⟨[],chunk,stream,rfl,by simp,by simpa [sizeOf] using he⟩
    · refine ⟨chunk::front,last,rest,rfl,?_,?_⟩
      · intro c hc
        rcases List.mem_cons.mp hc with rfl | hc
        · exact hw
        · exact hf c hc
      · rw [exceeds_saturated] at he
        simpa [sizeOf,Nat.add_assoc] using he

/-- A body that was received is the concatenation of its chunks and within the limit. -/
theorem received_some {bytes : Bytes} (h : received limit stream before = some bytes)
    (hb : ¬Exceeds limit before) :
    ∃ chunks, stream = chunks.map .ok ∧ bytes = bodyOf chunks ∧
      ¬Exceeds limit (before+sizeOf chunks) := by
  induction stream generalizing before bytes with
  | nil =>
    cases h
    exact ⟨[],rfl,rfl,by simpa [sizeOf] using hb⟩
  | cons item stream ih =>
    cases item with
    | error error => cases h
    | ok chunk =>
      simp only [received,Option.ite_none_left_eq_some,Option.map_eq_some_iff,not_or] at h
      obtain ⟨⟨hl,-⟩,rest,hr,rfl⟩ := h
      rw [← exceeds_iff] at hl
      obtain ⟨chunks,rfl,rfl,he⟩ := ih hr (by simpa using (exceeds_saturated limit _ 0).not.mpr hl)
      rw [exceeds_saturated] at he
      exact ⟨chunk::chunks,rfl,rfl,by simpa [sizeOf,Nat.add_assoc] using he⟩

variable {deletions : Deletions} {path : TempPath} {s : Store TempPath}

theorem cleanupDownload_error {α : Type} (error : DownloadError) :
    Ensures (cleanupDownload deletions path error : EStateM _ _ α) s (fun _ _ => False)
      (fun e _ => e = error) :=
  ((ensures_true _ s).ignore (R := fun _ _ => True) (F := fun _ _ => False) (fun _ _ h => h)
    (fun _ _ h => h)).bind (fun _ _ _ => ensures_throw rfl) (by simp)

theorem orCleanup_error {m : EStateM String (Store TempPath) PUnit}
    {Q : PUnit → Store TempPath → Prop} {E : String → Store TempPath → Prop}
    (hm : Ensures m s Q E) :
    Ensures (orCleanup deletions path m) s Q
      (fun e _ => (∃ error t, E error t) ∧ e ≠ .fileTooLarge) := by
  refine Ensures.bind hm.attempt_ended ?_ ?_
  · rintro (error|a) t h
    · refine (cleanupDownload_error _).mono (fun _ _ h => h.elim) ?_
      rintro e u rfl
      exact ⟨⟨error,t,h⟩,by simp⟩
    · exact ensures_pure h
  · rintro _ _ ⟨⟩

theorem writeChunks_tooLarge :
    Ensures (writeChunks deletions path limit stream before) s
      (fun _ _ => ¬OverLimit limit stream before)
      (fun e _ => e = .fileTooLarge ↔ OverLimit limit stream before) := by
  induction stream generalizing s before with
  | nil => exact ensures_pure overLimit_nil
  | cons item stream ih =>
    cases item with
    | error error =>
      refine (cleanupDownload_error _).mono (fun _ _ h => h.elim) ?_
      rintro e t rfl
      simp [overLimit_error]
    | ok chunk =>
      simp only [writeChunks,overLimit_cons,exceeds_iff]
      by_cases hl : limit < min (before+chunk.bytes.length) (2^64-1)
      · rw [if_pos hl]
        refine (cleanupDownload_error _).mono (fun _ _ h => h.elim) ?_
        rintro e t rfl
        exact ⟨fun _ => Or.inl hl,fun _ => rfl⟩
      · rw [if_neg hl]
        refine (orCleanup_error (append_rule s path chunk.bytes chunk.written)).bind ?_ ?_
        · rintro _ t ⟨hw,-⟩
          simpa only [hl,hw,false_or,true_and] using ih
        · rintro e t ⟨⟨error,u,left,hw,-⟩,he⟩
          have hn : chunk.written ≠ none := by simp [hw]
          exact ⟨fun h => absurd h he,fun h => h.elim (fun h => absurd h hl)
            (fun h => absurd h.1 hn)⟩

end Loop

section Program

variable (p : Parsers) (limits : LimitsConfig) (host : DownloadHost) (fileUrl : String)

/-- The URL is no data URL, and its host answers. -/
def Answered (reply : HttpReply) : Prop :=
  isPdfDataUrl fileUrl = false ∧ host.client = none ∧ ∃ url, validateFileUrl p fileUrl = .ok url ∧
    host.send url limits.downloadTimeoutSeconds = .ok reply

def AnnouncedTooLarge (reply : HttpReply) : Prop :=
  ∃ length, reply.contentLength = some length ∧ maxBytes limits.maxFileSizeMb < length.toNat

/-- The URL is a valid data URL of these bytes. -/
def Decoded (bytes : Bytes) : Prop :=
  isPdfDataUrl fileUrl = true ∧ (∃ url, validateFileUrl p fileUrl = .ok url) ∧
    ∃ front encoded, splitOnceChars ',' fileUrl.toList = some (front,encoded) ∧
      p.base64 (String.ofList encoded) = some bytes

def TooLarge : Prop :=
  if isPdfDataUrl fileUrl then decodePdfDataUrl p limits fileUrl = .error .fileTooLarge
  else openReply p limits host fileUrl = .error .fileTooLarge ∨
    ∃ reply, openReply p limits host fileUrl = .ok reply ∧ host.create = none ∧
      OverLimit (maxBytes limits.maxFileSizeMb) reply.stream 0

variable {p limits host fileUrl} {deletions : Deletions} {path : TempPath} {s : Store TempPath}

theorem downloadToPath_tooLarge :
    Ensures (downloadToPath p limits host deletions path fileUrl) s
      (fun _ _ => ¬TooLarge p limits host fileUrl)
      (fun e _ => e = .fileTooLarge ↔ TooLarge p limits host fileUrl) := by
  unfold downloadToPath TooLarge
  by_cases hu : isPdfDataUrl fileUrl = true
  · simp only [hu,if_true]
    refine (ofExcept_rule _ s).bind ?_ ?_
    · rintro bytes s ⟨hd,rfl⟩
      rw [hd]
      refine (orCleanup_error (write_rule s path bytes host.write)).bind ?_ ?_
      · exact fun _ _ _ => ensures_pure (fun h => nomatch h)
      · rintro e t ⟨-,he⟩
        simp [he]
    · rintro e t ⟨hd,rfl⟩
      simp [hd]
  · rw [if_neg hu,if_neg hu]
    refine (ofExcept_rule _ s).bind ?_ ?_
    · rintro reply s ⟨ho,rfl⟩
      have hreply : (openReply p limits host fileUrl = .error .fileTooLarge ∨
          ∃ reply, openReply p limits host fileUrl = .ok reply ∧ host.create = none ∧
            OverLimit (maxBytes limits.maxFileSizeMb) reply.stream 0) ↔
          host.create = none ∧ OverLimit (maxBytes limits.maxFileSizeMb) reply.stream 0 := by
        simp [ho]
      rw [hreply]
      refine Ensures.bind (Ensures.adapt (F := fun e _ => e ≠ .fileTooLarge ∧ host.create ≠ none)
        ((create_rule s path host.create).mono (fun _ _ h => h) ?_)) ?_ ?_
      · rintro error t ⟨hc,-⟩
        simp [hc]
      · rintro _ t ⟨hc,-⟩
        simp only [hc,true_and]
        refine writeChunks_tooLarge.bind ?_ (fun _ _ h => h)
        intro _ t hn
        refine (orCleanup_error (flush_rule t path host.flush)).bind ?_ ?_
        · exact fun _ _ _ => ensures_pure hn
        · rintro e u ⟨-,he⟩
          exact ⟨fun h => absurd h he,fun h => absurd h hn⟩
      · rintro e t ⟨he,hc⟩
        exact ⟨fun h => absurd h he,fun h => absurd h.1 hc⟩
    · rintro e t ⟨ho,rfl⟩
      simp [ho]

theorem error_tooLarge_iff :
    (∃ t, downloadToPath p limits host deletions path fileUrl s = .error .fileTooLarge t) ↔
      TooLarge p limits host fileUrl := by
  have hr : Ensures (downloadToPath p limits host deletions path fileUrl) s _ _ :=
    downloadToPath_tooLarge
  unfold Ensures at hr
  split at hr
  · rename_i hd
    simp [hd,hr]
  · rename_i e t hd
    simp [hd,← hr]

theorem openReply_answered {reply : HttpReply} (h : Answered p limits host fileUrl reply) :
    openReply p limits host fileUrl = .error .fileTooLarge ∧ AnnouncedTooLarge limits reply ∨
      openReply p limits host fileUrl = .ok reply ∧ ¬AnnouncedTooLarge limits reply := by
  obtain ⟨-,hc,url,hv,hs⟩ := h
  unfold AnnouncedTooLarge
  cases hl : reply.contentLength with
  | none => exact Or.inr ⟨by simp [openReply,hv,hc,hs,hl],by simp⟩
  | some length =>
    by_cases hm : maxBytes limits.maxFileSizeMb < length.toNat
    · exact Or.inl ⟨by simp [openReply,hv,hc,hs,hl,hm],length,rfl,hm⟩
    · exact Or.inr ⟨by simp [openReply,hv,hc,hs,hl,hm],by simpa using hm⟩

theorem tooLarge_answered {reply : HttpReply} (h : Answered p limits host fileUrl reply) :
    TooLarge p limits host fileUrl ↔ AnnouncedTooLarge limits reply ∨
      (host.create = none ∧ OverLimit (maxBytes limits.maxFileSizeMb) reply.stream 0) := by
  unfold TooLarge
  rw [if_neg (by simp [h.1])]
  rcases openReply_answered h with ⟨ho,ha⟩ | ⟨ho,ha⟩ <;> simp [ho,ha]

theorem tooLarge_decoded {bytes : Bytes} (h : Decoded p fileUrl bytes) :
    TooLarge p limits host fileUrl ↔ maxBytes limits.maxFileSizeMb < bytes.length := by
  obtain ⟨hu,⟨url,hv⟩,front,encoded,hs,hb⟩ := h
  unfold TooLarge
  by_cases hm : maxBytes limits.maxFileSizeMb < bytes.length <;>
    simp [hu,decodePdfDataUrl,hv,hs,hb,hm]

theorem length_bodyOf (chunks : List Chunk) : (bodyOf chunks).length = sizeOf chunks := by
  simp [bodyOf,sizeOf,List.length_flatMap]

theorem openReply_ok {reply : HttpReply} (hu : isPdfDataUrl fileUrl = false)
    (h : openReply p limits host fileUrl = .ok reply) : Answered p limits host fileUrl reply := by
  unfold openReply at h
  cases hv : validateFileUrl p fileUrl with
  | error error => simp [hv] at h
  | ok url =>
    cases hc : host.client with
    | some error => simp [hv,hc] at h
    | none =>
      cases hs : host.send url limits.downloadTimeoutSeconds with
      | error error => simp [hv,hc,hs] at h
      | ok answer =>
        refine ⟨hu,hc,url,hv,?_⟩
        simp only [hv,hc,hs] at h
        split at h
        · split_ifs at h
          cases h
          exact hs
        · cases h
          exact hs

theorem decodePdfDataUrl_ok {bytes : Bytes} (hu : isPdfDataUrl fileUrl = true)
    (h : decodePdfDataUrl p limits fileUrl = .ok bytes) :
    Decoded p fileUrl bytes ∧ bytes.length ≤ maxBytes limits.maxFileSizeMb := by
  unfold decodePdfDataUrl at h
  cases hv : validateFileUrl p fileUrl with
  | error error => simp [hv] at h
  | ok url =>
    cases hs : splitOnceChars ',' fileUrl.toList with
    | none => simp [hv,hs] at h
    | some parts =>
      cases hb : p.base64 (String.ofList parts.2) with
      | none => simp [hv,hs,hb] at h
      | some decoded =>
        simp only [hv,hs,hb] at h
        split_ifs at h with hm
        cases h
        exact ⟨⟨hu,⟨url,hv⟩,parts.1,parts.2,hs,hb⟩,Nat.not_lt.mp hm⟩

/-- Content that a download stores comes from a data URL or from a whole body. -/
theorem fetched_some {bytes : Bytes} (h : fetched p limits host fileUrl = some bytes) :
    ¬Exceeds (maxBytes limits.maxFileSizeMb) bytes.length ∧ (Decoded p fileUrl bytes ∨
      ∃ reply chunks, Answered p limits host fileUrl reply ∧ reply.stream = chunks.map .ok ∧
        bytes = bodyOf chunks) := by
  unfold fetched at h
  cases hu : isPdfDataUrl fileUrl with
  | true =>
    simp only [hu,if_true,Option.ite_none_left_eq_some] at h
    cases hd : decodePdfDataUrl p limits fileUrl with
    | error error => simp [hd,Except.toOption] at h
    | ok decoded =>
      obtain rfl : decoded = bytes := by simpa [hd,Except.toOption] using h.2
      obtain ⟨hdec,hl⟩ := decodePdfDataUrl_ok hu hd
      exact ⟨fun he => absurd he.1 (Nat.not_lt.mpr hl),Or.inl hdec⟩
  | false =>
    simp only [hu,Bool.false_eq_true,if_false,Option.ite_none_left_eq_some] at h
    cases ho : openReply p limits host fileUrl with
    | error error => simp [ho] at h
    | ok reply =>
      simp only [ho] at h
      obtain ⟨chunks,hs,rfl,he⟩ := received_some h.2 (fun he => absurd he.1 (Nat.not_lt_zero _))
      rw [Nat.zero_add,← length_bodyOf] at he
      exact ⟨he,Or.inr ⟨reply,chunks,openReply_ok hu ho,hs,rfl⟩⟩

end Program

section DataUrl

def base64Alphabet : List Char :=
  "ABCDEFGHIJKLMNOPQRSTUVWXYZabcdefghijklmnopqrstuvwxyz0123456789+/".toList

def base64Char (value : ℕ) : Char := base64Alphabet.getD value '='

/-- The standard encoding, with padding. -/
def base64Encode : Bytes → List Char
  | [] => []
  | [a] => [base64Char (a.toNat/4),base64Char (a.toNat%4*16),'=','=']
  | [a,b] => [base64Char (a.toNat/4),base64Char (a.toNat%4*16+b.toNat/16),
      base64Char (b.toNat%16*4),'=']
  | a::b::c::rest => base64Char (a.toNat/4)::base64Char (a.toNat%4*16+b.toNat/16)::
      base64Char (b.toNat%16*4+c.toNat/64)::base64Char (c.toNat%64)::base64Encode rest

theorem base64Encode_ne_nil {bytes : Bytes} (h : bytes ≠ []) : base64Encode bytes ≠ [] := by
  cases bytes using base64Encode.fun_cases <;> simp_all [base64Encode]

def mediaType : List Char := "application/pdf".toList

/-- The media type and the parameters, each after a semicolon. -/
def metadata (parameters : List String) : List Char :=
  mediaType++parameters.flatMap (fun parameter => ';'::parameter.toList)

def pdfDataUrl (parameters : List String) (bytes : Bytes) : String :=
  String.ofList ("data:".toList++(metadata parameters++ ','::base64Encode bytes))

theorem splitChars_parameters (front : List Char) (parameters : List String) :
    splitChars ';' (front++parameters.flatMap (fun parameter => ';'::parameter.toList)) =
      splitChars ';' front++
        parameters.flatMap (fun parameter => splitChars ';' parameter.toList) := by
  induction parameters generalizing front with
  | nil => simp
  | cons parameter parameters ih =>
    rw [List.flatMap_cons,List.cons_append,splitChars_append,ih]
    simp

variable {parameters : List String} {bytes : Bytes}

theorem comma_not_mem_metadata (hc : ∀ parameter ∈ parameters, ',' ∉ parameter.toList) :
    ',' ∉ metadata parameters := by
  have hmedia : ',' ∉ mediaType := by decide
  intro h
  rcases List.mem_append.mp h with h | h
  · exact hmedia h
  · obtain ⟨parameter,hp,hm⟩ := List.mem_flatMap.mp h
    rcases List.mem_cons.mp hm with hm | hm
    · exact absurd hm (by decide)
    · exact hc parameter hp hm

theorem pdfDataUrl_toList : (pdfDataUrl parameters bytes).toList =
    "data:".toList++(metadata parameters++ ','::base64Encode bytes) :=
  String.toList_ofList

theorem eqIgnoreAsciiCase_semicolon {parameter : String}
    (h : eqIgnoreAsciiCase parameter "base64" = true) : ';' ∉ parameter.toList := by
  intro hm
  have heq : parameter.toList.map Char.toLower = "base64".toList.map Char.toLower :=
    String.ofList_injective (beq_iff_eq.mp h)
  have hlower : ';' ∈ "base64".toList.map Char.toLower := by
    rw [← heq]
    exact List.mem_map.mpr ⟨';',hm,by decide⟩
  exact absurd hlower (by decide)

theorem isPdfDataUrl_pdfDataUrl (hb : bytes ≠ [])
    (hc : ∀ parameter ∈ parameters, ',' ∉ parameter.toList)
    (h64 : ∃ parameter ∈ parameters, eqIgnoreAsciiCase parameter "base64" = true) :
    isPdfDataUrl (pdfDataUrl parameters bytes) = true := by
  obtain ⟨parameter,hp,he⟩ := h64
  have hsemicolon : ';' ∉ mediaType := by decide
  have hparts : splitChars ';' (metadata parameters) = mediaType::
      parameters.flatMap (fun parameter => splitChars ';' parameter.toList) := by
    rw [metadata,splitChars_parameters,splitChars_of_not_mem hsemicolon,List.singleton_append]
  have hany : (parameters.flatMap (fun parameter => splitChars ';' parameter.toList)).any
      (fun part => eqIgnoreAsciiCase (String.ofList part) "base64") = true := by
    refine List.any_eq_true.mpr ⟨parameter.toList,List.mem_flatMap.mpr ⟨parameter,hp,?_⟩,?_⟩
    · rw [splitChars_of_not_mem (eqIgnoreAsciiCase_semicolon he)]
      simp
    · simpa using he
  have hmedia : eqIgnoreAsciiCase (String.ofList mediaType) "application/pdf" = true := by decide
  unfold isPdfDataUrl
  simp only [pdfDataUrl_toList,stripStart_append,splitOnceChars_append (comma_not_mem_metadata hc),
    hparts,hmedia,hany,List.isEmpty_iff,base64Encode_ne_nil hb,if_false,Bool.and_self]

theorem comma_not_mem_front (hc : ∀ parameter ∈ parameters, ',' ∉ parameter.toList) :
    ',' ∉ "data:".toList++metadata parameters := by
  intro h
  rcases List.mem_append.mp h with h | h
  · exact absurd h (by decide)
  · exact comma_not_mem_metadata hc h

theorem decoded_pdfDataUrl {p : Parsers} {url : Url} (hb : bytes ≠ [])
    (hc : ∀ parameter ∈ parameters, ',' ∉ parameter.toList)
    (h64 : ∃ parameter ∈ parameters, eqIgnoreAsciiCase parameter "base64" = true)
    (hu : p.url (pdfDataUrl parameters bytes) = some url) (hs : url.scheme = "data")
    (hd : p.base64 (String.ofList (base64Encode bytes)) = some bytes) :
    Decoded p (pdfDataUrl parameters bytes) bytes := by
  have hdata := isPdfDataUrl_pdfDataUrl hb hc h64
  refine ⟨hdata,⟨url,?_⟩,"data:".toList++metadata parameters,base64Encode bytes,?_,hd⟩
  · have hhttp : isHttp "data" = false := by decide
    simp [validateFileUrl,hu,hs,hdata,hhttp]
  · rw [pdfDataUrl_toList,← List.append_assoc]
    exact splitOnceChars_append (comma_not_mem_front hc) _

/-- A download stores what there is to fetch. -/
theorem downloadToPath_fetched (p : Parsers) (limits : LimitsConfig) (host : DownloadHost)
    (deletions : Deletions) (path : TempPath) (fileUrl : String) (s : Store TempPath)
    (hd : deletions .partialDownload = none) (hs : s path = none)
    (hf : fetched p limits host fileUrl = some bytes) :
    ∃ t, downloadToPath p limits host deletions path fileUrl s = .ok path t ∧
      t path = some (.file bytes) := by
  have hr := downloadToPath_rule p limits host fileUrl hd hs
  unfold Ensures at hr
  split at hr
  · rename_i r t ht
    obtain ⟨hpath,stored,hst,hfile,-⟩ := hr
    obtain rfl := Option.some.inj (hf.symm.trans hst)
    rw [hpath] at ht
    exact ⟨t,ht,hfile⟩
  · rename_i e t ht
    rw [hf] at hr
    cases hr.1

theorem fetched_decoded {p : Parsers} {limits : LimitsConfig} {host : DownloadHost}
    {fileUrl : String} (h : Decoded p fileUrl bytes)
    (hl : bytes.length ≤ maxBytes limits.maxFileSizeMb) (hw : host.write = none) :
    fetched p limits host fileUrl = some bytes := by
  obtain ⟨hu,⟨url,hv⟩,front,encoded,hs,hb⟩ := h
  simp [fetched,hu,hw,decodePdfDataUrl,hv,hs,hb,Nat.not_lt.mpr hl,Except.toOption]

end DataUrl

def signature : Bytes := [0x25,0x50,0x44,0x46,0x2d]

def dataUrl : Url where
  scheme := "data"
  hostStr := none
  port := none
  path := "application/pdf;charset=x;BASE64,JVBERi0="
  query := none
  asStr := "data:application/pdf;charset=x;BASE64,JVBERi0="
  origin := .unique
  origin_http := data_origin_http

def dataParsers : Parsers where
  url _ := some dataUrl
  base64 text := if text = "JVBERi0=" then some signature else none
  ipNet _ := none

def limitsOf (maxFileSizeMb : UInt64) : LimitsConfig := ⟨maxFileSizeMb,20,100,30⟩

def quietHost : DownloadHost := ⟨none,fun _ _ => .error "unreachable",none,none,none⟩

section Saturated

def zeros (count : ℕ) : Bytes := List.replicate count 0

theorem length_zeros (count : ℕ) : (zeros count).length = count := List.length_replicate

/-- A body of two to the power of 64 bytes. -/
def hugeBody : List Chunk := [⟨zeros (2^63-1),none⟩,⟨zeros (2^63-1),none⟩,⟨zeros 2,none⟩]

theorem received_unlimited (chunks : List Chunk) (before : ℕ)
    (h : ∀ chunk ∈ chunks, chunk.written = none) :
    received (2^64-1) (chunks.map .ok) before = some (bodyOf chunks) := by
  induction chunks generalizing before with
  | nil => rfl
  | cons chunk chunks ih =>
    have hw := h chunk (by simp)
    have hl : ¬2^64-1 < min (before+chunk.bytes.length) (2^64-1) :=
      Nat.not_lt.mpr (Nat.min_le_right _ _)
    simp only [List.map_cons,received,hl,hw,Option.isSome_none,Bool.false_eq_true,or_self,if_false,
      ih _ (fun c hc => h c (by simp [hc])),Option.map_some]
    rfl

def pageUrl : Url where
  scheme := "http"
  hostStr := some "files.example"
  port := none
  path := "/a.pdf"
  query := none
  asStr := "http://files.example/a.pdf"
  origin := .tuple "http" "files.example" 80
  origin_http := by
    rintro - _ ⟨⟩
    exact ⟨_,rfl,rfl⟩

def pageParsers : Parsers := ⟨fun _ => some pageUrl,fun _ => none,fun _ => none⟩

def hugeHost : DownloadHost :=
  ⟨none,fun _ _ => .ok ⟨none,hugeBody.map .ok⟩,none,none,none⟩

end Saturated

end YinShu.DownloadContract
