import YinShu.Settings
import YinShu.TempFile

/-!
# Downloading the file of a job

A file URL is fetched in chunks, or decoded when it is a PDF data URL, into a
temporary file within the configured byte limit. Every outcome of the network
and of the disk is given. `fetched` is the content that a set of outcomes
leads to; the program stores exactly that, or clears the path.
-/

set_option autoImplicit false

namespace YinShu.Download
open YinShu.TextScan YinShu.WebUrl YinShu.Protocol YinShu.Settings
open YinShu.ErrorState YinShu.FileStore YinShu.TempFile

inductive DownloadError where
  | invalidFileUrl
  | fileTooLarge
  | io (error : String)
  | request (error : String)
  deriving DecidableEq, Repr

def DownloadError.message : DownloadError → String
  | .invalidFileUrl => "invalid file url"
  | .fileTooLarge => "file too large"
  | .io error => error
  | .request error => error

/-- A chunk of the body and the outcome of writing it. -/
structure Chunk where
  bytes : Bytes
  written : Option Failure
  deriving DecidableEq, Repr

structure HttpReply where
  contentLength : Option UInt64
  stream : List (Except String Chunk)

/-- `send` also stands for the check of the response status. -/
structure DownloadHost where
  client : Option String
  send : Url → UInt64 → Except String HttpReply
  create : Option String
  flush : Option Failure
  write : Option Failure

section Program

variable (p : Parsers) (limits : LimitsConfig) (host : DownloadHost) (deletions : Deletions)
variable (path : TempPath) (fileUrl : String)

def cleanupDownload {α : Type} (error : DownloadError) :
    EStateM DownloadError (Store TempPath) α :=
  deleteAndThrow path (deletions .partialDownload) error

def orCleanup (m : EStateM String (Store TempPath) PUnit) :
    EStateM DownloadError (Store TempPath) PUnit := do
  match ← attempt m with
  | .ok _ => pure ⟨⟩
  | .error error => cleanupDownload deletions path (.io error)

/-- The loop over the body; the byte count saturates at 64 bits. -/
def writeChunks (limit : ℕ) : List (Except String Chunk) → ℕ →
    EStateM DownloadError (Store TempPath) PUnit
  | [],_ => pure ⟨⟩
  | .error error::_,_ => cleanupDownload deletions path (.request error)
  | .ok chunk::stream,downloaded =>
    let downloaded := min (downloaded+chunk.bytes.length) (2^64-1)
    if limit < downloaded then cleanupDownload deletions path .fileTooLarge
    else do
      orCleanup deletions path (append path chunk.bytes chunk.written)
      writeChunks limit stream downloaded

def openReply : Except DownloadError HttpReply :=
  match validateFileUrl p fileUrl with
  | .error _ => .error .invalidFileUrl
  | .ok url =>
    match host.client with
    | some error => .error (.request error)
    | none =>
      match host.send url limits.downloadTimeoutSeconds with
      | .error error => .error (.request error)
      | .ok reply =>
        match reply.contentLength with
        | some length =>
          if maxBytes limits.maxFileSizeMb < length.toNat then .error .fileTooLarge else .ok reply
        | none => .ok reply

def decodePdfDataUrl : Except DownloadError Bytes :=
  match validateFileUrl p fileUrl with
  | .error _ => .error .invalidFileUrl
  | .ok _ =>
    match splitOnceChars ',' fileUrl.toList with
    | none => .error .invalidFileUrl
    | some (_,encoded) =>
      match p.base64 (String.ofList encoded) with
      | none => .error .invalidFileUrl
      | some bytes =>
        if maxBytes limits.maxFileSizeMb < bytes.length then .error .fileTooLarge else .ok bytes

def writePdfDataUrlToPath : EStateM DownloadError (Store TempPath) TempPath := do
  let bytes ← ofExcept (decodePdfDataUrl p limits fileUrl)
  orCleanup deletions path (write path bytes host.write)
  pure path

def downloadToPath : EStateM DownloadError (Store TempPath) TempPath :=
  if isPdfDataUrl fileUrl then writePdfDataUrlToPath p limits host deletions path fileUrl
  else do
    let reply ← ofExcept (openReply p limits host fileUrl)
    (create path host.create).adaptExcept .io
    writeChunks deletions path (maxBytes limits.maxFileSizeMb) reply.stream 0
    orCleanup deletions path (flush path host.flush)
    pure path

end Program

/-- The content of a body whose chunks all arrive, fit and are written. -/
def received (limit : ℕ) : List (Except String Chunk) → ℕ → Option Bytes
  | [],_ => some []
  | .error _::_,_ => none
  | .ok chunk::stream,downloaded =>
    let downloaded := min (downloaded+chunk.bytes.length) (2^64-1)
    if limit < downloaded ∨ chunk.written.isSome then none
    else (received limit stream downloaded).map (fun bytes => chunk.bytes++bytes)

/-- The content that a download stores, if nothing goes wrong on the way. -/
def fetched (p : Parsers) (limits : LimitsConfig) (host : DownloadHost) (fileUrl : String) :
    Option Bytes :=
  if isPdfDataUrl fileUrl then
    if host.write.isSome then none else (decodePdfDataUrl p limits fileUrl).toOption
  else if host.create.isSome ∨ host.flush.isSome then none
  else match openReply p limits host fileUrl with
    | .error _ => none
    | .ok reply => received (maxBytes limits.maxFileSizeMb) reply.stream 0

/-- The path is absent and no other path has changed. -/
def Cleared (path : TempPath) (s t : Store TempPath) : Prop := t path = none ∧ Frame [path] s t

/-- The path is cleared, unless its deletion fails. -/
def ClearedUnlessKept (deletions : Deletions) (path : TempPath) (s t : Store TempPath) : Prop :=
  deletions .partialDownload = none → Cleared path s t

section Rules

variable {deletions : Deletions} {path : TempPath} {r s : Store TempPath}

theorem cleanupDownload_rule {α : Type} {Q : α → Store TempPath → Prop} (error : DownloadError)
    (hs : Frame [path] r s) :
    Ensures (cleanupDownload deletions path error) s Q
      (fun _ t => ClearedUnlessKept deletions path r t) := by
  cases hd : deletions .partialDownload with
  | none =>
    unfold cleanupDownload
    refine (deleteAndThrow_rule s path error hd).mono (fun _ _ h => h) ?_
    rintro _ t rfl -
    exact ⟨remove_same s,hs.remove (by simp)⟩
  | some kept =>
    refine Ensures.bind (M := fun _ _ => True) ((ensures_true _ s).ignore (F := fun _ _ => False)
      (fun _ _ h => h) (fun _ _ h => h)) (fun _ t _ => ensures_throw ?_) (by simp)
    intro hn
    rw [hd] at hn
    cases hn

theorem orCleanup_rule {m : EStateM String (Store TempPath) PUnit}
    {Q : PUnit → Store TempPath → Prop} {E : String → Store TempPath → Prop}
    (hm : Ensures m s Q E) (hE : ∀ error t, E error t → Frame [path] r t) :
    Ensures (orCleanup deletions path m) s Q
      (fun _ t => (∃ error u, E error u) ∧ ClearedUnlessKept deletions path r t) := by
  refine Ensures.bind hm.attempt_ended ?_ ?_
  · rintro (error|a) t h
    · exact (cleanupDownload_rule _ (hE error t h)).mono (fun _ _ h' => h')
        (fun _ _ h' => ⟨⟨error,t,h⟩,h'⟩)
    · exact ensures_pure h
  · rintro _ _ ⟨⟩

/-- The loop stores the received bytes after those already there, or clears the
path because something did not arrive, did not fit or was not written. -/
theorem writeChunks_rule (limit : ℕ) (stream : List (Except String Chunk)) (downloaded : ℕ)
    (before : Bytes) (hs : Frame [path] r s) (hb : s path = some (.file before)) :
    Ensures (writeChunks deletions path limit stream downloaded) s
      (fun _ t => ∃ bytes, received limit stream downloaded = some bytes ∧
        t path = some (.file (before++bytes)) ∧ Frame [path] r t)
      (fun _ t => received limit stream downloaded = none ∧
        ClearedUnlessKept deletions path r t) := by
  induction stream generalizing s downloaded before with
  | nil => exact ensures_pure ⟨[],rfl,by simpa using hb,hs⟩
  | cons item stream ih =>
    rcases item with error|chunk
    · exact (cleanupDownload_rule _ hs).mono (fun _ _ h => h) (fun _ _ h => ⟨rfl,h⟩)
    · simp only [writeChunks]
      by_cases hl : limit < min (downloaded+chunk.bytes.length) (2^64-1)
      · rw [if_pos hl]
        refine (cleanupDownload_rule _ hs).mono (fun _ _ h => h) (fun _ _ h => ⟨?_,h⟩)
        simp only [received,if_pos (Or.inl hl)]
      · rw [if_neg hl]
        refine Ensures.bind (orCleanup_rule (r := r)
          (append_rule s path chunk.bytes chunk.written) ?_) ?_ ?_
        · rintro error t ⟨left,-,rfl⟩
          exact hs.leave (by simp) left
        · rintro _ t ⟨hw,rfl⟩
          have hn : ¬(limit < min (downloaded+chunk.bytes.length) (2^64-1) ∨
              chunk.written.isSome = true) := by
            rintro (h|h)
            · exact hl h
            · simp [hw] at h
          refine (ih (s := s.put path (.file (s.bytes path++chunk.bytes))) _
            (before++chunk.bytes) (hs.put (by simp) _) ?_).mono ?_ ?_
          · simp [Store.bytes,hb]
          · rintro _ u ⟨bytes,hr,hu,hf⟩
            refine ⟨chunk.bytes++bytes,?_,by simpa using hu,hf⟩
            simp only [received,if_neg hn,hr,Option.map_some]
          · rintro _ u ⟨hr,hu⟩
            refine ⟨?_,hu⟩
            simp only [received,if_neg hn,hr,Option.map_none]
        · rintro _ t ⟨⟨error,u,left,hw,-⟩,ht⟩
          refine ⟨?_,ht⟩
          have hp : limit < min (downloaded+chunk.bytes.length) (2^64-1) ∨
              chunk.written.isSome = true := by simp [hw]
          simp only [received,if_pos hp]

end Rules

section Specification

variable (p : Parsers) (limits : LimitsConfig) (host : DownloadHost) {deletions : Deletions}
variable {path : TempPath} {s : Store TempPath} (fileUrl : String)

theorem writePdfDataUrlToPath_rule (hu : isPdfDataUrl fileUrl = true) :
    Ensures (writePdfDataUrlToPath p limits host deletions path fileUrl) s
      (fun r t => r = path ∧ ∃ bytes, fetched p limits host fileUrl = some bytes ∧
        t path = some (.file bytes) ∧ Frame [path] s t)
      (fun _ t => fetched p limits host fileUrl = none ∧
        (s path = none → ClearedUnlessKept deletions path s t)) := by
  have hr := Frame.refl [path] s
  refine (ofExcept_rule _ s).bind ?_ ?_
  · rintro bytes s ⟨hdec,rfl⟩
    refine Ensures.bind (orCleanup_rule (r := s) (write_rule s path bytes host.write) ?_) ?_ ?_
    · rintro error t ⟨left,-,rfl⟩
      exact hr.leave (by simp) left
    · rintro _ t ⟨hw,rfl⟩
      refine ensures_pure ⟨rfl,bytes,?_,put_same s _,hr.put (by simp) _⟩
      simp [fetched,hu,hw,hdec,Except.toOption]
    · rintro _ t ⟨⟨error,u,left,hw,-⟩,ht⟩
      exact ⟨by simp [fetched,hu,hw],fun _ => ht⟩
  · rintro error t ⟨hdec,rfl⟩
    exact ⟨by simp [fetched,hu,hdec,Except.toOption],fun hs _ => ⟨hs,hr⟩⟩

/-- The download stores exactly the fetched content; if it fails, a path that was absent
is absent again unless its deletion fails. -/
theorem downloadToPath_spec :
    Ensures (downloadToPath p limits host deletions path fileUrl) s
      (fun r t => r = path ∧ ∃ bytes, fetched p limits host fileUrl = some bytes ∧
        t path = some (.file bytes) ∧ Frame [path] s t)
      (fun _ t => fetched p limits host fileUrl = none ∧
        (s path = none → ClearedUnlessKept deletions path s t)) := by
  unfold downloadToPath
  by_cases hu : isPdfDataUrl fileUrl = true
  · rw [if_pos hu]
    exact writePdfDataUrlToPath_rule p limits host fileUrl hu
  · rw [if_neg hu]
    have hr := Frame.refl [path] s
    refine (ofExcept_rule _ s).bind ?_ ?_
    · rintro reply s ⟨ho,rfl⟩
      refine Ensures.bind (Ensures.adapt (F := fun _ t => host.create.isSome = true ∧ t = s)
        ((create_rule s path host.create).mono (fun _ _ h => h) ?_)) ?_ ?_
      · rintro error t ⟨hc,rfl⟩
        exact ⟨by simp [hc],rfl⟩
      · rintro _ _ ⟨hc,rfl⟩
        refine Ensures.bind (writeChunks_rule (r := s) _ _ 0 [] (hr.put (by simp) _)
          (put_same s _)) ?_ ?_
        · rintro _ t ⟨bytes,hrec,ht,hf⟩
          refine Ensures.bind (orCleanup_rule (r := s) (flush_rule t path host.flush) ?_) ?_ ?_
          · rintro error u ⟨left,-,rfl⟩
            exact hf.leave (by simp) left
          · rintro _ _ ⟨hfl,rfl⟩
            refine ensures_pure ⟨rfl,bytes,?_,by simpa using ht,hf⟩
            simp [fetched,hu,hc,hfl,ho,hrec]
          · rintro _ u ⟨⟨error,v,left,hfl,-⟩,hcl⟩
            exact ⟨by simp [fetched,hu,hfl],fun _ => hcl⟩
        · rintro _ t ⟨hrec,hcl⟩
          exact ⟨by simp [fetched,hu,ho,hrec],fun _ => hcl⟩
      · rintro _ t ⟨hc,rfl⟩
        exact ⟨by simp [fetched,hu,hc],fun hs _ => ⟨hs,hr⟩⟩
    · rintro error t ⟨ho,rfl⟩
      exact ⟨by simp [fetched,hu,ho],fun hs _ => ⟨hs,hr⟩⟩

/-- Into an absent path the download stores exactly the fetched content, or leaves
the path absent. -/
theorem downloadToPath_rule (hd : deletions .partialDownload = none) (hs : s path = none) :
    Ensures (downloadToPath p limits host deletions path fileUrl) s
      (fun r t => r = path ∧ ∃ bytes, fetched p limits host fileUrl = some bytes ∧
        t path = some (.file bytes) ∧ Frame [path] s t)
      (fun _ t => fetched p limits host fileUrl = none ∧ Cleared path s t) :=
  (downloadToPath_spec p limits host fileUrl).mono (fun _ _ h => h)
    (fun _ _ h => ⟨h.1,h.2 hs hd⟩)

end Specification

end YinShu.Download
