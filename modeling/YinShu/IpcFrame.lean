import YinShu.ByteStream
import YinShu.CommandDispatch
import YinShu.ErrorState

/-!
# IPC frames

A frame is the length of its payload as a 32-bit word and then the payload. The
writer and the reader are separate functions over the bytes of one connection,
each with its own bound on the length. What is read back from any number of
frames is what was written; and what an interrupted write leaves behind is
never taken for a frame.
-/

set_option autoImplicit false

namespace YinShu.IpcFrame
open YinShu.ByteStream YinShu.ErrorState YinShu.FunctionalCommand
open YinShu.CommandDispatch
open YinShu.ConfigImport (runtimeError)

def frameTooLarge : CommandError := ⟨.invalidInput,"IPC frame is too large"⟩

def writeFrame (payload : List UInt8) : EStateM CommandError (Sink String) Unit :=
  if maxIpcFrameBytes < payload.length then throw frameTooLarge
  else do
    EStateM.adaptExcept runtimeError (writeU32 (UInt32.ofNat payload.length))
    EStateM.adaptExcept runtimeError (writeAll payload)

/-- `ending` is the text of the error that the stream ends with. -/
def readFrame (ending : String) : EStateM CommandError (List UInt8) (List UInt8) := do
  let len ← EStateM.adaptExcept runtimeError (readU32 ending)
  if maxIpcFrameBytes < len.toNat then throw frameTooLarge
  else EStateM.adaptExcept runtimeError (takeExact ending len.toNat)

def writeFrames : List (List UInt8) → EStateM CommandError (Sink String) Unit
  | [] => pure ()
  | payload::payloads => do
    writeFrame payload
    writeFrames payloads

def readFrames (ending : String) :
    ℕ → EStateM CommandError (List UInt8) (List (List UInt8))
  | 0 => pure []
  | n+1 => do
    let payload ← readFrame ending
    let payloads ← readFrames ending n
    return payload::payloads

/-- What a frame is, whoever writes or reads it. -/
def frame (payload : List UInt8) : List UInt8 := bigEndian 4 payload.length++payload

/-- The bytes that `writeFrame` puts down on a writer of its own. -/
def output (payload : List UInt8) : List UInt8 :=
  match writeFrame payload ⟨[],none⟩ with
  | .ok _ sink | .error _ sink => sink.written

theorem length_word {payload : List UInt8} (h : payload.length ≤ maxIpcFrameBytes) :
    (UInt32.ofNat payload.length).toNat = payload.length :=
  UInt32.toNat_ofNat_of_lt' (lt_of_le_of_lt h (by decide))

section Writing

variable {payload : List UInt8}

theorem writeFrame_large (h : maxIpcFrameBytes < payload.length) (sink : Sink String) :
    writeFrame payload sink = .error frameTooLarge sink := by
  rw [writeFrame,if_pos h]
  rfl

theorem writeFrame_fits (h : payload.length ≤ maxIpcFrameBytes) (sink : Sink String) :
    writeFrame payload sink = EStateM.adaptExcept runtimeError (writeAll (frame payload)) sink := by
  rw [writeFrame,if_neg (Nat.not_lt.mpr h),← adaptExcept_bind]
  unfold EStateM.adaptExcept writeU32
  rw [writeAll_append,length_word h]
  rfl

theorem writeFrame_intact (h : payload.length ≤ maxIpcFrameBytes) (written : List UInt8) :
    writeFrame payload ⟨written,none⟩ = .ok () ⟨written++frame payload,none⟩ := by
  rw [writeFrame_fits h]
  rfl

theorem output_eq (h : payload.length ≤ maxIpcFrameBytes) : output payload = frame payload := by
  rw [output,writeFrame_intact h]
  rfl

theorem writeFrame_intact_fails (written : List UInt8) :
    (∃ error sink, writeFrame payload ⟨written,none⟩ = .error error sink) ↔
      maxIpcFrameBytes < payload.length := by
  constructor
  · rintro ⟨error,sink,hw⟩
    by_contra hle
    rw [writeFrame_intact (Nat.not_lt.mp hle)] at hw
    cases hw
  · exact fun h => ⟨frameTooLarge,_,writeFrame_large h _⟩

end Writing

section Exchange

variable {R : Type} (place : Place) (execute : Command → Except CommandError R) (wire : Wire)
variable (command : Command) (payload : List UInt8) (sink : Sink String)

/-- How sending one frame over a writer ends, as the wire of an exchange has it. -/
def sentOver : Except String Unit :=
  match writeAll (frame payload) sink with
  | .ok _ _ => .ok ()
  | .error text _ => .error text

/-- An exchange fails on the request frame exactly as `writeFrame` does, and
otherwise waits for the answer. -/
theorem exchange_result (hw : wire.serialized = .ok payload.length)
    (hs : wire.sent = sentOver payload sink) :
    (exchange place execute wire command).result = match writeFrame payload sink with
      | .error error _ => .error error
      | .ok _ _ => readResponse wire ((answer place execute wire command).map Prod.snd) := by
  unfold exchange
  rw [hw]
  by_cases h : maxIpcFrameBytes < payload.length
  · simp only [if_pos h,writeFrame_large h]
    rfl
  · rw [writeFrame_fits (Nat.not_lt.mp h),EStateM.adaptExcept]
    simp only [if_neg h,hs,sentOver]
    cases writeAll (frame payload) sink with
    | ok _ _ => rfl
    | error text _ => rfl

end Exchange

theorem writeFrames_intact {payloads : List (List UInt8)}
    (h : ∀ payload ∈ payloads, payload.length ≤ maxIpcFrameBytes) (written : List UInt8) :
    writeFrames payloads ⟨written,none⟩ = .ok () ⟨written++payloads.flatMap frame,none⟩ := by
  induction payloads generalizing written with
  | nil => simp [writeFrames,Pure.pure,EStateM.pure]
  | cons payload payloads ih =>
    have hp := writeFrame_intact (h payload (by simp)) written
    have hps := ih (fun p hm => h p (by simp [hm])) (written++frame payload)
    rw [writeFrames,List.flatMap_cons,← List.append_assoc,bind_ok]
    exact ⟨(),_,hp,hps⟩

section Reading

variable (ending : String)

/-- A frame is read exactly where one stands at the front of the stream, and
then nothing beyond it is consumed. -/
theorem readFrame_ok (payload unread rest : List UInt8) :
    readFrame ending unread = .ok payload rest ↔
      payload.length ≤ maxIpcFrameBytes ∧ unread = frame payload++rest := by
  unfold readFrame
  rw [bind_ok]
  constructor
  · rintro ⟨len,body,hlen,hbody⟩
    rw [adaptExcept_ok,readU32_ok] at hlen
    split at hbody
    · cases hbody
    · case isFalse hle =>
      rw [adaptExcept_ok,takeExact_ok] at hbody
      obtain ⟨hpayload,rfl⟩ := hbody
      exact ⟨by omega,by rw [hlen,frame,hpayload,List.append_assoc]⟩
  · rintro ⟨hle,rfl⟩
    have hword := length_word hle
    refine ⟨UInt32.ofNat payload.length,payload++rest,?_,?_⟩
    · rw [adaptExcept_ok,readU32_ok,hword,frame,List.append_assoc]
    · rw [hword,if_neg (Nat.not_lt.mpr hle),adaptExcept_ok,takeExact_ok]
      exact ⟨rfl,rfl⟩

theorem readFrame_large {unread : List UInt8} (h4 : 4 ≤ unread.length)
    (h : maxIpcFrameBytes < bigEndianValue (unread.take 4)) :
    readFrame ending unread = .error frameTooLarge (unread.drop 4) := by
  have hlt := bigEndianValue_lt (unread.take 4)
  rw [List.length_take_of_le h4] at hlt
  have hword : (UInt32.ofNat (bigEndianValue (unread.take 4))).toNat =
      bigEndianValue (unread.take 4) := UInt32.toNat_ofNat_of_lt' hlt
  unfold readFrame
  simp only [Bind.bind,EStateM.bind,EStateM.adaptExcept,readU32_eq,if_pos h4,hword,if_pos h]
  rfl

/-- A part of a frame that is not the whole frame is refused: were it read as a
frame, the whole one would be read from it too and leave nothing over. -/
theorem readFrame_part {payload part more : List UInt8}
    (h : payload.length ≤ maxIpcFrameBytes) (hf : frame payload = part++more)
    (hm : more ≠ []) : ∃ error unread, readFrame ending part = .error error unread := by
  cases hr : readFrame ending part with
  | error error unread => exact ⟨error,unread,rfl⟩
  | ok shorter rest =>
    obtain ⟨hle,hpart⟩ := (readFrame_ok ending shorter part rest).mp hr
    have hwhole : readFrame ending (frame payload) = .ok payload [] :=
      (readFrame_ok ending payload _ []).mpr ⟨h,(List.append_nil _).symm⟩
    have hshort : readFrame ending (frame payload) = .ok shorter (rest++more) :=
      (readFrame_ok ending shorter _ _).mpr ⟨hle,by rw [hf,hpart,List.append_assoc]⟩
    rw [hwhole] at hshort
    cases more with
    | nil => exact absurd rfl hm
    | cons byte more => simp at hshort

/-- What reached the other side of a write that broke is not read as a frame. -/
theorem readFrame_broken {payload : List UInt8} {fault : Option (ℕ × String)}
    {error : CommandError} {sink : Sink String} (h : payload.length ≤ maxIpcFrameBytes)
    (hw : writeFrame payload ⟨[],fault⟩ = .error error sink) :
    ∃ error' unread, readFrame ending sink.written = .error error' unread := by
  rw [writeFrame_fits h,EStateM.adaptExcept] at hw
  cases hall : writeAll (frame payload) (⟨[],fault⟩ : Sink String) with
  | ok _ _ => simp [hall] at hw
  | error text broken =>
    rw [hall] at hw
    cases hw
    obtain ⟨part,more,hf,hm,hpart⟩ := writeAll_error hall
    rw [hpart]
    exact readFrame_part ending h hf hm

theorem readFrames_frames {payloads : List (List UInt8)}
    (h : ∀ payload ∈ payloads, payload.length ≤ maxIpcFrameBytes) (rest : List UInt8) :
    readFrames ending payloads.length (payloads.flatMap frame++rest) = .ok payloads rest := by
  induction payloads with
  | nil => rfl
  | cons payload payloads ih =>
    have hp : readFrame ending ((payload::payloads).flatMap frame++rest) =
        .ok payload (payloads.flatMap frame++rest) :=
      (readFrame_ok ending _ _ _).mpr
        ⟨h payload (by simp),by rw [List.flatMap_cons,List.append_assoc]⟩
    have hps := ih (fun p hm => h p (by simp [hm]))
    rw [List.length_cons,readFrames,bind_ok]
    exact ⟨payload,_,hp,bind_ok.mpr ⟨payloads,rest,hps,rfl⟩⟩

end Reading

theorem outputs_eq {payloads : List (List UInt8)}
    (h : ∀ payload ∈ payloads, payload.length ≤ maxIpcFrameBytes) :
    payloads.flatMap output = payloads.flatMap frame :=
  List.flatMap_congr (fun payload hp => output_eq (h payload hp))

theorem output_declares {payload : List UInt8} (h : payload.length ≤ maxIpcFrameBytes) :
    bigEndianValue ((output payload).take 4) = payload.length := by
  have hword : payload.length < 256^4 := lt_of_le_of_lt h (by decide)
  have htake : (frame payload).take 4 = bigEndian 4 payload.length :=
    List.take_left' (length_bigEndian 4 payload.length)
  rw [output_eq h,htake,bigEndianValue_bigEndian,Nat.mod_eq_of_lt hword]

/-- IPC framing loses nothing and delimits itself, whatever error the stream
ends with. -/
theorem ipc_framing (ending : String) :
    (∀ (payloads : List (List UInt8)) (rest : List UInt8),
      (∀ payload ∈ payloads, payload.length ≤ maxIpcFrameBytes) →
        writeFrames payloads ⟨[],none⟩ = .ok () ⟨payloads.flatMap output,none⟩ ∧
        readFrames ending payloads.length (payloads.flatMap output++rest) =
          .ok payloads rest) ∧
    (∀ payload written : List UInt8,
      ((∃ error sink, writeFrame payload ⟨written,none⟩ = .error error sink) ↔
        maxIpcFrameBytes < payload.length) ∧
      (maxIpcFrameBytes < payload.length →
        writeFrame payload ⟨written,none⟩ = .error frameTooLarge ⟨written,none⟩)) ∧
    (∀ payload part more : List UInt8, payload.length ≤ maxIpcFrameBytes →
      output payload = part++more → more ≠ [] →
        ∃ error unread, readFrame ending part = .error error unread) ∧
    (∀ unread : List UInt8, 4 ≤ unread.length →
      maxIpcFrameBytes < bigEndianValue (unread.take 4) →
        readFrame ending unread = .error frameTooLarge (unread.drop 4)) ∧
    (∀ payload : List UInt8, payload.length ≤ maxIpcFrameBytes →
      (UInt32.ofNat payload.length).toNat = payload.length ∧
        bigEndianValue ((output payload).take 4) = payload.length) := by
  refine ⟨fun payloads rest h => ?_,fun payload written => ?_,?_,?_,?_⟩
  · rw [outputs_eq h]
    exact ⟨writeFrames_intact h [],readFrames_frames ending h rest⟩
  · exact ⟨writeFrame_intact_fails written,fun h => writeFrame_large h _⟩
  · intro payload part more h hf hm
    rw [output_eq h] at hf
    exact readFrame_part ending h hf hm
  · exact fun unread h4 h => readFrame_large ending h4 h
  · exact fun payload h => ⟨length_word h,output_declares h⟩

theorem ipc_framing_two_frames :
    readFrames "early eof" 2 ([[1,2],[]].flatMap output++[9]) = .ok [[1,2],[]] [9] :=
  ((ipc_framing "early eof").1 [[1,2],[]] [9] (by decide)).2

end YinShu.IpcFrame
