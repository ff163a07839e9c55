import YinShu.IpcFrame
import YinShu.LabelledRun

/-!
# Exchanges with a running agent

Any number of clients each send one command over a connection of their own
and wait for the answer, while the agent serves every connection in a task of
its own. The bytes of both directions move in pieces of any size; either end
may break off, and a client gives up when the agent takes too long. The
commands that were started, with their results, record history; no step reads
them.
-/

set_option autoImplicit false

namespace YinShu.IpcExchange
open YinShu.LabelledRun YinShu.ByteStream YinShu.IpcFrame YinShu.ErrorState
open YinShu.FunctionalCommand YinShu.CommandDispatch
open YinShu.ConfigImport (runtimeError)

variable {R : Type}

/-- The serialization of both envelopes. -/
structure Codec (R : Type) where
  request : CommandRequest → Except String (List UInt8)
  parseRequest : List UInt8 → Except String CommandRequest
  response : CommandResponse R → Except String (List UInt8)
  parseResponse : List UInt8 → Except String (CommandResponse R)

inductive Client (R : Type) where
  | idle
  | writing (rest : List UInt8)
  | awaiting
  | done (result : Except CommandError R)

inductive Server where
  | reading
  | executing (requestId : String) (command : Command)
  | writing (rest : List UInt8)
  | closed

structure Conn (R : Type) where
  request : CommandRequest := ⟨ipcProtocolVersion,"",.getConfig⟩
  client : Client R := .idle
  up : List UInt8 := []
  server : Server := .closed
  down : List UInt8 := []
  started : List Command := []
  finished : List (Except CommandError R) := []

inductive Label (R : Type) where
  | connect (requestId : String) (command : Command)
  | send (n : ℕ)
  | breakWrite (text : String)
  | receive
  | hangUp
  | finish (result : Except CommandError R)
  | respond (n : ℕ)
  | breakRespond
  | answer
  | lose (text : String)
  | timeOut

variable (codec : Codec R)

/-- What is written of a serialized envelope: its frame, unless that is too large. -/
def framed (payload : Except String (List UInt8)) : Except CommandError (List UInt8) :=
  match payload with
  | .error text => .error (runtimeError text)
  | .ok payload =>
    if maxIpcFrameBytes < payload.length then .error frameTooLarge else .ok (frame payload)

def Conn.connect (requestId : String) (command : Command) : Conn R where
  request := ⟨ipcProtocolVersion,requestId,command⟩
  server := .reading
  client := match framed (codec.request ⟨ipcProtocolVersion,requestId,command⟩) with
    | .ok bytes => .writing bytes
    | .error error => .done (.error error)

def Conn.send (c : Conn R) (rest : List UInt8) (n : ℕ) : Conn R :=
  { c with
    up := c.up++rest.take n
    client := if rest.drop n = [] then .awaiting else .writing (rest.drop n) }

def Conn.fail (c : Conn R) (error : CommandError) : Conn R :=
  { c with client := .done (.error error) }

def unsupportedVersion : CommandError := ⟨.invalidInput,"unsupported IPC protocol version"⟩

/-- The agent writes its response, or drops the connection when it cannot. -/
def Conn.reply (c : Conn R) (response : CommandResponse R) : Conn R :=
  { c with server := match framed (codec.response response) with
      | .ok bytes => .writing bytes
      | .error _ => .closed }

/-- `handle_connection` from the frame it read to the start of the command. -/
def Conn.receive (c : Conn R) (payload : List UInt8) : Conn R :=
  match codec.parseRequest payload with
  | .error _ => { c with server := .closed }
  | .ok request =>
    if request.protocolVersion = ipcProtocolVersion then
      { c with
        server := .executing request.requestId request.command
        started := c.started++[request.command] }
    else c.reply codec ⟨ipcProtocolVersion,request.requestId,.error unsupportedVersion⟩

/-- The result of the command as its response. -/
def Conn.finish (c : Conn R) (requestId : String) (result : Except CommandError R) : Conn R :=
  { c with finished := c.finished++[result] }.reply codec ⟨ipcProtocolVersion,requestId,result⟩

def Conn.respond (c : Conn R) (rest : List UInt8) (n : ℕ) : Conn R :=
  { c with
    down := c.down++rest.take n
    server := if rest.drop n = [] then .closed else .writing (rest.drop n) }

/-- What the client makes of the payload of an answer. -/
def Codec.accepted (codec : Codec R) (requestId : String) (payload : List UInt8) :
    Except CommandError R :=
  match codec.parseResponse payload with
  | .error text => .error (runtimeError text)
  | .ok response =>
    if response.protocolVersion ≠ ipcProtocolVersion ∨ response.requestId ≠ requestId then
      .error (runtimeError "invalid IPC response envelope")
    else response.result

/-- An I/O error of the connection, at any time; too large a length is refused first. -/
def Conn.lose (c : Conn R) (text : String) : Conn R :=
  match readFrame text c.down with
  | .error error _ => c.fail error
  | .ok _ _ => c.fail (runtimeError text)

def step (c : Conn R) : Label R → Option (Conn R)
  | .connect requestId command =>
    match c.client with
    | .idle => some (.connect codec requestId command)
    | _ => none
  | .send n =>
    match c.client with
    | .writing rest => some (c.send rest n)
    | _ => none
  | .breakWrite text =>
    match c.client with
    | .writing _ => some (c.fail (runtimeError text))
    | _ => none
  | .receive =>
    match c.server,readFrame "early eof" c.up with
    | .reading,.ok payload unread => some ({ c with up := unread }.receive codec payload)
    | _,_ => none
  | .hangUp =>
    match c.server with
    | .reading => some { c with server := .closed }
    | _ => none
  | .finish result =>
    match c.server with
    | .executing requestId _ => some (c.finish codec requestId result)
    | _ => none
  | .respond n =>
    match c.server with
    | .writing rest => some (c.respond rest n)
    | _ => none
  | .breakRespond =>
    match c.server with
    | .writing _ => some { c with server := .closed }
    | _ => none
  | .answer =>
    match c.client,readFrame "early eof" c.down with
    | .awaiting,.ok payload _ =>
      some { c with client := .done (codec.accepted c.request.requestId payload) }
    | _,_ => none
  | .lose text =>
    match c.client with
    | .awaiting => some (c.lose text)
    | _ => none
  | .timeOut =>
    match c.client with
    | .awaiting => some (c.fail (runtimeError "IPC request timed out"))
    | _ => none

section Frames

variable {payload other part more rest : List UInt8} {text : String} {error : CommandError}

theorem frame_injective (hp : payload.length ≤ maxIpcFrameBytes)
    (ho : other.length ≤ maxIpcFrameBytes) (h : frame payload++more = frame other++rest) :
    payload = other ∧ more = rest := by
  have hread := (readFrame_ok "" payload _ more).mpr ⟨hp,rfl⟩
  rw [h,(readFrame_ok "" other _ rest).mpr ⟨ho,rfl⟩] at hread
  cases hread
  exact ⟨rfl,rfl⟩

theorem frame_ne_nil : frame payload ≠ [] := by
  intro h
  simpa [frame] using congrArg List.length h

/-- The length word of a part of a frame is never refused as too large. -/
theorem readFrame_part_error (hp : payload.length ≤ maxIpcFrameBytes)
    (hf : part = [] ∨ part++more = frame payload)
    (h : readFrame text part = .error error rest) : error = runtimeError text := by
  unfold readFrame at h
  simp only [Bind.bind,EStateM.bind,EStateM.adaptExcept,readU32_eq] at h
  by_cases h4 : 4 ≤ part.length
  · have hf : part++more = frame payload := hf.resolve_left (by rintro rfl; simp at h4)
    have htake : part.take 4 = bigEndian 4 payload.length := by
      have hfront : (part++more).take 4 = part.take 4 := List.take_append_of_le_length h4
      rw [← hfront,hf]
      exact List.take_left' (length_bigEndian 4 _)
    have hword : bigEndianValue (part.take 4) = payload.length := by
      rw [htake,bigEndianValue_bigEndian]
      exact Nat.mod_eq_of_lt (lt_of_le_of_lt hp (by decide))
    simp only [if_pos h4,hword,length_word hp,if_neg (Nat.not_lt.mpr hp),EStateM.adaptExcept] at h
    unfold takeExact at h
    by_cases hl : payload.length ≤ (part.drop 4).length
    · rw [if_pos hl] at h
      cases h
    · rw [if_neg hl] at h
      cases h
      rfl
  · simp only [if_neg h4] at h
    cases h
    rfl

theorem framed_ok {serialized : Except String (List UInt8)} {bytes : List UInt8} :
    framed serialized = .ok bytes ↔
      ∃ payload, serialized = .ok payload ∧ payload.length ≤ maxIpcFrameBytes ∧
        frame payload = bytes := by
  unfold framed
  cases serialized with
  | error text => simp
  | ok payload =>
    by_cases h : maxIpcFrameBytes < payload.length
    · simp [h]
    · simp [h,Nat.not_lt.mp h]

theorem framed_error {serialized : Except String (List UInt8)}
    (h : framed serialized = .error error) :
    (∃ text, error = runtimeError text) ∨ error = frameTooLarge := by
  unfold framed at h
  split at h
  · cases h
    exact Or.inl ⟨_,rfl⟩
  · split at h
    · cases h
      exact Or.inr rfl
    · cases h

end Frames

/-- What the agent reads of a client's request once all of it has arrived. -/
def Delivered (c : Conn R) (request : CommandRequest) : Prop :=
  ∃ payload, codec.request c.request = .ok payload ∧ payload.length ≤ maxIpcFrameBytes ∧
    codec.parseRequest payload = .ok request

/-- A response to the delivered request: the result of the one execution of its
command, or the refusal of its version. -/
def Replies (c : Conn R) (response : CommandResponse R) : Prop :=
  (∃ requestId command result, Delivered codec c ⟨ipcProtocolVersion,requestId,command⟩ ∧
    c.started = [command] ∧ c.finished = [result] ∧
    response = ⟨ipcProtocolVersion,requestId,result⟩) ∨
  ∃ request, Delivered codec c request ∧ request.protocolVersion ≠ ipcProtocolVersion ∧
    c.started = [] ∧
    response = ⟨ipcProtocolVersion,request.requestId,.error unsupportedVersion⟩

/-- A result that says nothing about the command: an error of the transport, or a
request that fits in no frame. -/
def Failed (c : Conn R) (result : Except CommandError R) : Prop :=
  (∃ text, result = .error (runtimeError text)) ∨
    result = .error frameTooLarge ∧ framed (codec.request c.request) = .error frameTooLarge

def Answered (c : Conn R) (result : Except CommandError R) : Prop :=
  ∃ response payload, Replies codec c response ∧ codec.response response = .ok payload ∧
    result = codec.accepted c.request.requestId payload

/-- The frame of a response, of which `rest` is still to be written. -/
def Answering (c : Conn R) (rest : List UInt8) : Prop :=
  ∃ response payload, Replies codec c response ∧ codec.response response = .ok payload ∧
    payload.length ≤ maxIpcFrameBytes ∧ c.down++rest = frame payload

/-- The bytes that the client set out to send. -/
def Conn.wanted (c : Conn R) : List UInt8 :=
  match framed (codec.request c.request) with
  | .ok bytes => bytes
  | .error _ => []

/-- At most one execution, of the command that was delivered, with at most one result. -/
def Conn.History (c : Conn R) : Prop :=
  c.started = [] ∧ c.finished = [] ∨
    ∃ requestId command, Delivered codec c ⟨ipcProtocolVersion,requestId,command⟩ ∧
      c.started = [command] ∧ c.finished.length ≤ 1

structure Conn.Inv (c : Conn R) : Prop where
  fresh : c.client = .idle → c = {}
  reading : c.server = .reading →
    c.started = [] ∧ c.finished = [] ∧ c.down = [] ∧
      ∃ rest, c.up++rest = c.wanted codec ∧ ∀ pending, c.client = .writing pending → pending = rest
  executing : ∀ requestId command, c.server = .executing requestId command →
    Delivered codec c ⟨ipcProtocolVersion,requestId,command⟩ ∧ c.started = [command] ∧
      c.finished = [] ∧ c.down = []
  writing : ∀ rest, c.server = .writing rest → Answering codec c rest
  closed : c.server = .closed → c.down = [] ∨ ∃ rest, Answering codec c rest
  history : c.History codec
  settled : ∀ result, c.client = .done result →
    Failed codec c result ∨ c.down ≠ [] ∧ Answered codec c result

section Steps

variable {codec} {c : Conn R}

theorem Conn.Inv.open (h : c.Inv codec) (hs : c.server ≠ .closed) : c.client ≠ .idle := by
  intro hc
  exact hs (congrArg Conn.server (h.fresh hc))

theorem Conn.Inv.answering (h : c.Inv codec) (hd : c.down ≠ []) :
    ∃ rest, Answering codec c rest := by
  cases hs : c.server with
  | reading => exact absurd (h.reading hs).2.2.1 hd
  | executing requestId command => exact absurd (h.executing _ _ hs).2.2.2 hd
  | writing rest => exact ⟨rest,h.writing rest hs⟩
  | closed => exact (h.closed hs).resolve_left hd

theorem inv_connect (requestId : String) (command : Command) :
    (Conn.connect codec requestId command).Inv codec := by
  unfold Conn.connect
  cases hf : framed (codec.request ⟨ipcProtocolVersion,requestId,command⟩) with
  | ok bytes =>
    refine ⟨by simp,fun _ => ⟨rfl,rfl,rfl,bytes,?_,?_⟩,by simp,by simp,by simp,Or.inl ⟨rfl,rfl⟩,
      by simp⟩
    · simp [Conn.wanted,hf]
    · intro pending hp
      cases hp
      rfl
  | error error =>
    refine ⟨by simp,fun _ => ⟨rfl,rfl,rfl,[],?_,by simp⟩,by simp,by simp,by simp,
      Or.inl ⟨rfl,rfl⟩,?_⟩
    · simp [Conn.wanted,hf]
    · intro result hr
      cases hr
      rcases framed_error hf with ⟨text,rfl⟩ | rfl
      · exact Or.inl (Or.inl ⟨text,rfl⟩)
      · exact Or.inl (Or.inr ⟨rfl,hf⟩)

theorem inv_send {rest : List UInt8} (n : ℕ) (h : c.Inv codec) (hc : c.client = .writing rest) :
    (c.send rest n).Inv codec := by
  refine ⟨?_,?_,h.executing,h.writing,h.closed,h.history,?_⟩
  · intro hi
    simp only [Conn.send] at hi
    split at hi <;> cases hi
  · intro hs
    obtain ⟨hst,hfi,hd,more,hup,hmore⟩ := h.reading hs
    refine ⟨hst,hfi,hd,rest.drop n,?_,?_⟩
    · calc (c.up++rest.take n)++rest.drop n = c.up++more := by
            rw [List.append_assoc,List.take_append_drop,hmore rest hc]
        _ = (c.send rest n).wanted codec := hup
    · intro pending hp
      simp only [Conn.send] at hp
      split at hp <;> cases hp
      rfl
  · intro result hr
    simp only [Conn.send] at hr
    split at hr <;> cases hr

theorem inv_settle (h : c.Inv codec) {result : Except CommandError R}
    (hr : Failed codec c result ∨ c.down ≠ [] ∧ Answered codec c result) :
    ({ c with client := .done result } : Conn R).Inv codec := by
  refine ⟨by simp,?_,h.executing,h.writing,h.closed,h.history,?_⟩
  · intro hs
    obtain ⟨hst,hfi,hd,more,hup,_⟩ := h.reading hs
    exact ⟨hst,hfi,hd,more,hup,by simp⟩
  · intro other ho
    cases ho
    exact hr

theorem inv_fail (h : c.Inv codec) (text : String) : (c.fail (runtimeError text)).Inv codec :=
  inv_settle h (Or.inl (Or.inl ⟨text,rfl⟩))

theorem inv_lose (h : c.Inv codec) (text : String) : (c.lose text).Inv codec := by
  unfold Conn.lose
  cases hr : readFrame text c.down with
  | ok payload unread => exact inv_fail h text
  | error error unread =>
    have herror : error = runtimeError text := by
      by_cases hd : c.down = []
      · exact readFrame_part_error (by decide : ([] : List UInt8).length ≤ maxIpcFrameBytes)
          (Or.inl hd : _ ∨ c.down++[] = _) hr
      · obtain ⟨rest,response,payload,_,_,hle,hdown⟩ := h.answering hd
        exact readFrame_part_error hle (Or.inr hdown) hr
    rw [herror]
    exact inv_fail h text

theorem inv_answer (h : c.Inv codec) {payload unread : List UInt8}
    (hr : readFrame "early eof" c.down = .ok payload unread) :
    ({ c with client := .done (codec.accepted c.request.requestId payload) } : Conn R).Inv
      codec := by
  obtain ⟨hle,hdown⟩ := (readFrame_ok _ _ _ _).mp hr
  have hd : c.down ≠ [] := by
    rw [hdown]
    simp [frame_ne_nil]
  obtain ⟨rest,response,written,hreply,hcodec,hwritten,hframe⟩ := h.answering hd
  have hsame : payload = written := by
    have hboth : frame payload++(unread++rest) = frame written++[] := by
      rw [← List.append_assoc,← hdown,hframe,List.append_nil]
    exact (frame_injective hle hwritten hboth).1
  exact inv_settle h (Or.inr ⟨hd,response,payload,hreply,hsame ▸ hcodec,rfl⟩)

/-- Where the agent reads a whole frame, the client's own request has arrived. -/
theorem read_delivered (h : c.Inv codec) (hs : c.server = .reading) {payload unread : List UInt8}
    (hr : readFrame "early eof" c.up = .ok payload unread) :
    codec.request c.request = .ok payload ∧ payload.length ≤ maxIpcFrameBytes := by
  obtain ⟨hle,hup⟩ := (readFrame_ok _ _ _ _).mp hr
  obtain ⟨_,_,_,rest,hwanted,_⟩ := h.reading hs
  unfold Conn.wanted at hwanted
  cases hf : framed (codec.request c.request) with
  | error error => simp [hf,hup,frame_ne_nil] at hwanted
  | ok bytes =>
    obtain ⟨sent,hsent,hlen,rfl⟩ := framed_ok.mp hf
    have hboth : frame payload++(unread++rest) = frame sent++[] := by
      rw [← List.append_assoc,← hup,hwanted,hf,List.append_nil]
    rw [(frame_injective hle hlen hboth).1]
    exact ⟨hsent,hlen⟩

theorem inv_reply {response : CommandResponse R} (hc : c.client ≠ .idle) (hd : c.down = [])
    (hreply : Replies codec c response) (hh : c.History codec)
    (hf : ∀ result, c.client = .done result → Failed codec c result) :
    (c.reply codec response).Inv codec := by
  unfold Conn.reply
  cases hframed : framed (codec.response response) with
  | error error =>
    exact ⟨fun hi => absurd hi hc,by simp,by simp,by simp,fun _ => Or.inl hd,hh,
      fun result hr => Or.inl (hf result hr)⟩
  | ok bytes =>
    obtain ⟨payload,hcodec,hle,rfl⟩ := framed_ok.mp hframed
    refine ⟨fun hi => absurd hi hc,by simp,by simp,?_,by simp,hh,
      fun result hr => Or.inl (hf result hr)⟩
    intro rest hrest
    cases hrest
    exact ⟨response,payload,hreply,hcodec,hle,by rw [hd,List.nil_append]⟩

theorem inv_receive (h : c.Inv codec) (hs : c.server = .reading) {payload unread : List UInt8}
    (hr : readFrame "early eof" c.up = .ok payload unread) :
    (Conn.receive codec { c with up := unread } payload).Inv codec := by
  obtain ⟨hrequest,hle⟩ := read_delivered h hs hr
  obtain ⟨hst,hfi,hd,_⟩ := h.reading hs
  have hc : c.client ≠ .idle := h.open (by simp [hs])
  have hf : ∀ result, c.client = .done result → Failed codec c result := fun result hres =>
    (h.settled result hres).resolve_right (fun hn => hn.1 hd)
  unfold Conn.receive
  cases hp : codec.parseRequest payload with
  | error text =>
    exact ⟨fun hi => absurd hi hc,by simp,by simp,by simp,fun _ => Or.inl hd,h.history,h.settled⟩
  | ok request =>
    have hdelivered : Delivered codec c request := ⟨payload,hrequest,hle,hp⟩
    by_cases hv : request.protocolVersion = ipcProtocolVersion
    · have hown : Delivered codec c ⟨ipcProtocolVersion,request.requestId,request.command⟩ := by
        rw [← hv]
        exact hdelivered
      simp only [if_pos hv,hst,List.nil_append]
      refine ⟨fun hi => absurd hi hc,by simp,?_,by simp,by simp,?_,
        fun result hres => Or.inl (hf result hres)⟩
      · intro requestId command he
        cases he
        exact ⟨hown,rfl,hfi,hd⟩
      · exact Or.inr ⟨request.requestId,request.command,hown,rfl,by simp [hfi]⟩
    · simp only [if_neg hv]
      exact inv_reply hc hd (Or.inr ⟨request,hdelivered,hv,hst,rfl⟩) h.history hf

theorem inv_finish (h : c.Inv codec) {requestId : String} {command : Command}
    (hs : c.server = .executing requestId command) (result : Except CommandError R) :
    (c.finish codec requestId result).Inv codec := by
  obtain ⟨hdelivered,hst,hfi,hd⟩ := h.executing _ _ hs
  have hc : c.client ≠ .idle := h.open (by simp [hs])
  refine inv_reply hc hd ?_ ?_ ?_
  · exact Or.inl ⟨requestId,command,result,hdelivered,hst,by simp [hfi],rfl⟩
  · exact Or.inr ⟨requestId,command,hdelivered,hst,by simp [hfi]⟩
  · exact fun other ho => (h.settled other ho).resolve_right (fun hn => hn.1 hd)

theorem inv_respond (h : c.Inv codec) {rest : List UInt8} (hs : c.server = .writing rest) (n : ℕ) :
    (c.respond rest n).Inv codec := by
  have hc : c.client ≠ .idle := h.open (by simp [hs])
  obtain ⟨response,payload,hreply,hcodec,hle,hframe⟩ := h.writing rest hs
  have hpart : Answering codec (c.respond rest n) (rest.drop n) :=
    ⟨response,payload,hreply,hcodec,hle,by
      simpa [Conn.respond,List.append_assoc] using hframe⟩
  refine ⟨fun hi => absurd hi hc,?_,?_,?_,fun _ => Or.inr ⟨_,hpart⟩,h.history,?_⟩
  · intro hs
    simp only [Conn.respond] at hs
    split at hs <;> cases hs
  · intro requestId command he
    simp only [Conn.respond] at he
    split at he <;> cases he
  · intro more hm
    simp only [Conn.respond] at hm
    split at hm <;> cases hm
    exact hpart
  · intro result hr
    rcases h.settled result hr with hf | ⟨hd,ha⟩
    · exact Or.inl hf
    · exact Or.inr ⟨by simp [Conn.respond,hd],ha⟩

theorem inv_close (h : c.Inv codec) (hs : c.server ≠ .closed)
    (hd : c.down = [] ∨ ∃ rest, Answering codec c rest) :
    ({ c with server := .closed } : Conn R).Inv codec :=
  ⟨fun hi => absurd hi (h.open hs),by simp,by simp,by simp,fun _ => hd,h.history,h.settled⟩

theorem inv_step {c' : Conn R} {l : Label R} (h : c.Inv codec) (hstep : step codec c l = some c') :
    c'.Inv codec := by
  cases l with
  | connect requestId command =>
    simp only [step] at hstep
    split at hstep <;> cases hstep
    exact inv_connect requestId command
  | send n =>
    simp only [step] at hstep
    split at hstep <;> cases hstep
    case h_1.refl rest hc => exact inv_send n h hc
  | breakWrite text =>
    simp only [step] at hstep
    split at hstep <;> cases hstep
    exact inv_fail h text
  | receive =>
    simp only [step] at hstep
    split at hstep <;> cases hstep
    case h_1.refl payload unread hs hr => exact inv_receive h hs hr
  | hangUp =>
    simp only [step] at hstep
    split at hstep <;> cases hstep
    case h_1.refl hs => exact inv_close h (by simp [hs]) (Or.inl (h.reading hs).2.2.1)
  | finish result =>
    simp only [step] at hstep
    split at hstep <;> cases hstep
    case h_1.refl requestId command hs => exact inv_finish h hs result
  | respond n =>
    simp only [step] at hstep
    split at hstep <;> cases hstep
    case h_1.refl rest hs => exact inv_respond h hs n
  | breakRespond =>
    simp only [step] at hstep
    split at hstep <;> cases hstep
    case h_1.refl rest hs => exact inv_close h (by simp [hs]) (Or.inr ⟨rest,h.writing rest hs⟩)
  | answer =>
    simp only [step] at hstep
    split at hstep <;> cases hstep
    case h_1.refl payload unread hc hr => exact inv_answer h hr
  | lose text =>
    simp only [step] at hstep
    split at hstep <;> cases hstep
    exact inv_lose h text
  | timeOut =>
    simp only [step] at hstep
    split at hstep <;> cases hstep
    exact inv_fail h "IPC request timed out"

theorem receive_client (codec : Codec R) (c : Conn R) (payload : List UInt8) :
    (c.receive codec payload).client = c.client ∧
      (c.receive codec payload).request = c.request := by
  unfold Conn.receive
  split
  · exact ⟨rfl,rfl⟩
  · split <;> exact ⟨rfl,rfl⟩

theorem lose_client (text : String) :
    (c.lose text).client ≠ .idle ∧ (c.lose text).request = c.request := by
  unfold Conn.lose
  split <;> exact ⟨by simp [Conn.fail],rfl⟩

theorem send_client (rest : List UInt8) (n : ℕ) : (c.send rest n).client ≠ .idle := by
  simp only [Conn.send]
  split <;> simp

/-- Once a client has connected, its request stays what it is. -/
theorem request_step {request : CommandRequest} {c' : Conn R} {l : Label R}
    (h : c.client ≠ .idle ∧ c.request = request) (hstep : step codec c l = some c') :
    c'.client ≠ .idle ∧ c'.request = request := by
  obtain ⟨hc,rfl⟩ := h
  cases l with
  | connect requestId command =>
    simp only [step] at hstep
    cases hstep
  | send n =>
    simp only [step] at hstep
    split at hstep <;> cases hstep
    exact ⟨send_client _ n,rfl⟩
  | receive =>
    simp only [step] at hstep
    split at hstep <;> cases hstep
    case h_1.refl payload unread _ _ =>
      obtain ⟨hclient,hrequest⟩ :=
        receive_client codec { c with up := unread } payload
      exact ⟨by rwa [hclient],hrequest⟩
  | lose text =>
    simp only [step] at hstep
    split at hstep <;> cases hstep
    exact lose_client text
  | breakWrite _ | answer | timeOut =>
    simp only [step] at hstep
    split at hstep <;> cases hstep
    exact ⟨by simp [Conn.fail],rfl⟩
  | hangUp | finish _ | respond _ | breakRespond =>
    simp only [step] at hstep
    split at hstep <;> cases hstep
    exact ⟨hc,rfl⟩

theorem request_connect {requestId : String} {command : Command} {c' : Conn R}
    (hstep : step codec c (.connect requestId command) = some c') :
    c'.client ≠ .idle ∧ c'.request = ⟨ipcProtocolVersion,requestId,command⟩ := by
  simp only [step] at hstep
  split at hstep <;> cases hstep
  refine ⟨?_,rfl⟩
  simp only [Conn.connect]
  split <;> simp

end Steps

theorem inv_start : ({} : Conn R).Inv codec :=
  ⟨fun _ => rfl,by simp,by simp,by simp,fun _ => Or.inl rfl,Or.inl ⟨rfl,rfl⟩,by simp⟩

/-- In every interleaving of the connections: a command is started at most once, only
for the request of its own connection and only when that arrived whole; and what a
client is told is either that the exchange failed, or what it makes of the response to
that one execution. -/
theorem answers_come_from_own_execution (ls : List (ℕ × Label R)) (s : ℕ → Conn R)
    (hr : run (parties (step codec)) ls (fun _ => {}) = some s) (i : ℕ) :
    (∀ requestId command, (i,.connect requestId command) ∈ ls →
      (s i).request = ⟨ipcProtocolVersion,requestId,command⟩) ∧
    (s i).started.length ≤ 1 ∧ (s i).finished.length ≤ (s i).started.length ∧
    (∀ command ∈ (s i).started, ∃ requestId,
      Delivered codec (s i) ⟨ipcProtocolVersion,requestId,command⟩) ∧
    ∀ result, (s i).client = .done result →
      Failed codec (s i) result ∨ Answered codec (s i) result := by
  have hi := parties_invariant (step codec) (Conn.Inv codec) (fun _ _ _ => inv_step) ls _ s
    (fun _ => inv_start codec) hr i
  refine ⟨fun requestId command hm => ?_,?_⟩
  · exact (parties_established (step codec) _ (fun _ _ _ => request_step) i _
      (fun _ _ => request_connect) ls _ s hm hr).2
  · have hsettled : ∀ result, (s i).client = .done result →
        Failed codec (s i) result ∨ Answered codec (s i) result :=
      fun result hres => (hi.settled result hres).imp_right And.right
    rcases hi.history with ⟨hst,hfi⟩ | ⟨requestId,command,hdelivered,hst,hfi⟩
    · rw [hst,hfi]
      exact ⟨by simp,by simp,by simp,hsettled⟩
    · rw [hst]
      refine ⟨le_rfl,hfi,?_,hsettled⟩
      intro other ho
      rw [List.mem_singleton.mp ho]
      exact ⟨requestId,hdelivered⟩

def wireText (text : String) : List UInt8 := text.toList.map (fun c => UInt8.ofNat c.toNat)

def clearRequest (requestId : String) : List UInt8 :=
  wireText ("\x7b\"protocol_version\":1,\"request_id\":\""++requestId++
    "\",\"command\":\x7b\"command\":\"clear_task_history\"\x7d\x7d")

def clearResponse (requestId : String) : List UInt8 :=
  wireText ("\x7b\"protocol_version\":1,\"request_id\":\""++requestId++
    "\",\"result\":\x7b\"Ok\":\x7b\"result\":\"empty\"\x7d\x7d\x7d")

def clearIds : List String :=
  ["7d444840-9dc0-41d1-b245-5ffdce74fad2","0b6f3f80-5d6c-4c3e-9c38-0f9a1d4a8f11"]

/-- The serialization of requests to clear the task history and of their results. -/
def clearCodec : Codec Unit where
  request request := .ok (clearRequest request.requestId)
  parseRequest payload :=
    match clearIds.find? (fun id => clearRequest id = payload) with
    | some id => .ok ⟨ipcProtocolVersion,id,.clearTaskHistory⟩
    | none => .error "expected value at line 1 column 1"
  response response := .ok (clearResponse response.requestId)
  parseResponse payload :=
    match clearIds.find? (fun id => clearResponse id = payload) with
    | some id => .ok ⟨ipcProtocolVersion,id,.ok ()⟩
    | none => .error "expected value at line 1 column 1"

/-- Two clients at once; the slower one gives up after its command was started. -/
def clearTwice : List (ℕ × Label Unit) :=
  [(0,.connect "7d444840-9dc0-41d1-b245-5ffdce74fad2" .clearTaskHistory),
    (1,.connect "0b6f3f80-5d6c-4c3e-9c38-0f9a1d4a8f11" .clearTaskHistory),
    (0,.send 50),(1,.send 500),(1,.receive),(0,.send 500),(0,.receive),(1,.finish (.ok ())),
    (0,.timeOut),(1,.respond 3),(0,.finish (.ok ())),(1,.respond 500),(1,.answer)]

theorem answers_come_from_own_execution_clear :
    ∃ s, run (parties (step clearCodec)) clearTwice (fun _ => {}) = some s ∧
      ∀ i, (s i).started.length ≤ 1 := by
  obtain ⟨s,hs⟩ := Option.isSome_iff_exists.mp
    (show (run (parties (step clearCodec)) clearTwice (fun _ => {})).isSome = true by
      decide +kernel)
  exact ⟨s,hs,fun i => (answers_come_from_own_execution clearCodec clearTwice s hs i).2.1⟩

end YinShu.IpcExchange
