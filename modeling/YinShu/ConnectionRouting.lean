import YinShu.AgentSystem

/-!
# One connection and the status channel

What a socket loop has been sent, as a function of the entries it has read and
of the jobs that were accepted on it. Every step of the loop keeps this
account, and so does every step of the others: an entry in the channel, or an
acceptance elsewhere.
-/

set_option autoImplicit false

namespace YinShu.ConnectionRouting
open YinShu.Protocol YinShu.PrintQueue YinShu.ClientText YinShu.Acceptance YinShu.AgentSystem
open YinShu.Signals

def replyDue : Phase → Option ClientTextOutcome
  | .accepted handled => some handled.outcome
  | .replying outcome => some outcome
  | _ => none

/-- Identifiers that are accepted and not yet bound to the connection. -/
def binding (phase : Phase) : List String :=
  ((replyDue phase).map ClientTextOutcome.acceptedJobIds).getD []

def eventJobId : ServerMessage → Option String
  | .jobStatus _ jobId _ _ => some jobId
  | _ => none

def eventOf (jobId : String) : Frame → Option ServerMessage
  | .event message => if eventJobId message = some jobId then some message else none
  | _ => none

/-- The status events of a job among the frames of a connection. -/
def eventsOf (jobId : String) (sent : List Frame) : List ServerMessage :=
  sent.filterMap (eventOf jobId)

/-- The status events of a job among the broadcast entries. -/
def eventsFor (jobId : String) (log : List TaskLogEntry) : List ServerMessage :=
  log.filterMap (fun entry => statusMessageForConnection entry {jobId})

/-- The reply that tells the client that the job is queued. -/
def Acknowledges (outcome : ClientTextOutcome) (jobId : String) : Prop :=
  isQueued outcome.response = true ∧ jobId ∈ outcome.acceptedJobIds

/-- Every status event comes after the reply that acknowledges its job. -/
def Ordered (sent : List Frame) : Prop :=
  ∀ before message after, sent = before++Frame.event message::after →
    ∃ jobId outcome, eventJobId message = some jobId ∧ Frame.reply outcome ∈ before ∧
      Acknowledges outcome jobId

def AcceptedOn (acceptances : List JobAcceptance) (c : ℕ) (jobId : String) : Prop :=
  ∃ a ∈ acceptances, a.conn = c ∧ a.jobId = jobId

structure Routed (log : List TaskLogEntry) (acceptances : List JobAcceptance) (c : ℕ)
    (conn : Connection) : Prop where
  behind : conn.cursor ≤ log.length
  bound : ∀ jobId, AcceptedOn acceptances c jobId ↔
    jobId ∈ conn.acceptedJobIds ∨ jobId ∈ binding conn.phase
  unbound : conn.phase = .unopened → conn.acceptedJobIds = ∅
  answer : ∀ outcome, replyDue conn.phase = some outcome →
    outcome.acceptedJobIds ≠ [] → isQueued outcome.response = true
  own : ∀ message, Frame.event message ∈ conn.sent →
    ∃ jobId ∈ conn.acceptedJobIds, eventJobId message = some jobId
  acked : conn.phase ≠ .closed → ∀ jobId ∈ conn.acceptedJobIds,
    ∃ outcome, Frame.reply outcome ∈ conn.sent ∧ Acknowledges outcome jobId
  ordered : Ordered conn.sent
  delivered : conn.phase ≠ .closed → conn.lagged = false → ∀ jobId,
    AcceptedOn acceptances c jobId →
      eventsOf jobId conn.sent = eventsFor jobId (log.take conn.cursor)

theorem statusMessage_some {entry : TaskLogEntry} {ids : Finset String}
    {message : ServerMessage} (h : statusMessageForConnection entry ids = some message) :
    ∃ jobId ∈ ids, entry.jobId = some jobId ∧ eventJobId message = some jobId ∧
      statusMessageForConnection entry {jobId} = some message := by
  cases hj : entry.jobId with
  | none => simp [statusMessageForConnection,hj] at h
  | some jobId =>
    simp only [statusMessageForConnection, hj, Option.ite_none_right_eq_some,
      Option.some.injEq] at h
    obtain ⟨hm,rfl⟩ := h
    exact ⟨jobId,hm,rfl,rfl,by simp [statusMessageForConnection,hj]⟩

theorem eventsFor_append (jobId : String) (log rest : List TaskLogEntry) :
    eventsFor jobId (log++rest) = eventsFor jobId log++eventsFor jobId rest :=
  List.filterMap_append

theorem eventsOf_snoc (jobId : String) (sent : List Frame) (frame : Frame) :
    eventsOf jobId (sent++[frame]) = eventsOf jobId sent++(eventOf jobId frame).toList := by
  rw [eventsOf,List.filterMap_append]
  cases h : eventOf jobId frame <;> simp [eventsOf,h]

theorem eventsFor_snoc (jobId : String) (log : List TaskLogEntry) (entry : TaskLogEntry) :
    eventsFor jobId (log++[entry]) =
      eventsFor jobId log++(statusMessageForConnection entry {jobId}).toList := by
  rw [eventsFor_append]
  cases h : statusMessageForConnection entry {jobId} <;> simp [eventsFor,h]

theorem Ordered.snoc {sent : List Frame} (h : Ordered sent) (frame : Frame)
    (hf : ∀ message, frame = .event message →
      ∃ jobId outcome, eventJobId message = some jobId ∧ Frame.reply outcome ∈ sent ∧
        Acknowledges outcome jobId) : Ordered (sent++[frame]) := by
  intro before message after he
  rcases List.eq_nil_or_concat after with rfl | ⟨after',last,rfl⟩
  · obtain ⟨rfl,hl⟩ := List.append_inj' he rfl
    exact hf message (List.cons.inj hl).1
  · refine h before message after' ?_
    have hs : before++Frame.event message::(after'++[last]) =
        (before++Frame.event message::after')++[last] := by simp
    rw [List.concat_eq_append,hs] at he
    exact (List.append_inj' he rfl).1

/-- What is forwarded for one entry is, for each bound job, its event in the entry. -/
theorem forwarded_event (entry : TaskLogEntry) (ids : Finset String) (jobId : String)
    (hj : jobId ∈ ids) :
    (statusMessageForConnection entry ids).bind (fun m => eventOf jobId (.event m)) =
      statusMessageForConnection entry {jobId} := by
  cases he : entry.jobId with
  | none => simp [statusMessageForConnection,he]
  | some id =>
    by_cases hid : id = jobId
    · subst hid
      simp [statusMessageForConnection,he,hj,eventOf,eventJobId]
    · by_cases hmem : id ∈ ids
      · simp [statusMessageForConnection,he,hmem,hid,eventOf,eventJobId]
      · simp [statusMessageForConnection,he,hmem,hid]

theorem eventsFor_nil {jobId : String} {log : List TaskLogEntry}
    (h : ∀ entry ∈ log, entry.jobId ≠ some jobId) : eventsFor jobId log = [] := by
  refine List.filterMap_eq_nil_iff.mpr (fun entry he => ?_)
  cases hm : statusMessageForConnection entry {jobId} with
  | none => rfl
  | some message =>
    obtain ⟨id,hid,hj,-⟩ := statusMessage_some hm
    rw [Finset.mem_singleton.mp hid] at hj
    exact absurd hj (h entry he)

theorem eventsOf_nil {jobId : String} {sent : List Frame}
    (h : ∀ message, Frame.event message ∈ sent → eventJobId message ≠ some jobId) :
    eventsOf jobId sent = [] := by
  refine List.filterMap_eq_nil_iff.mpr (fun frame hf => ?_)
  cases frame with
  | event message => simp [eventOf,h message hf]
  | reply outcome => rfl
  | pong => rfl

section Connections

variable {log : List TaskLogEntry} {acceptances : List JobAcceptance} {c : ℕ}
  {conn : Connection}

theorem Routed.publish (h : Routed log acceptances c conn) (entry : TaskLogEntry) :
    Routed (log++[entry]) acceptances c conn where
  behind := by
    rw [List.length_append]
    exact Nat.le_add_right_of_le h.behind
  bound := h.bound
  unbound := h.unbound
  answer := h.answer
  own := h.own
  acked := h.acked
  ordered := h.ordered
  delivered hp hl jobId ha := by
    rw [List.take_append_of_le_length h.behind]
    exact h.delivered hp hl jobId ha

theorem acceptedOn_append_other {new : List JobAcceptance} (hn : ∀ a ∈ new, a.conn ≠ c)
    (jobId : String) :
    AcceptedOn (acceptances++new) c jobId ↔ AcceptedOn acceptances c jobId := by
  constructor
  · rintro ⟨a,ha,hc,hj⟩
    rcases List.mem_append.mp ha with ha | ha
    · exact ⟨a,ha,hc,hj⟩
    · exact absurd hc (hn a ha)
  · rintro ⟨a,ha,hc,hj⟩
    exact ⟨a,List.mem_append_left _ ha,hc,hj⟩

theorem Routed.accept_other (h : Routed log acceptances c conn) (new : List JobAcceptance)
    (hn : ∀ a ∈ new, a.conn ≠ c) : Routed log (acceptances++new) c conn where
  behind := h.behind
  bound jobId := (acceptedOn_append_other hn jobId).trans (h.bound jobId)
  unbound := h.unbound
  answer := h.answer
  own := h.own
  acked := h.acked
  ordered := h.ordered
  delivered hp hl jobId ha := h.delivered hp hl jobId ((acceptedOn_append_other hn jobId).mp ha)

theorem acceptedOn_append_own (jobIds : List String) (n : ℕ) (jobId : String) :
    AcceptedOn (acceptances++jobIds.map (fun id => ⟨c,id,n⟩)) c jobId ↔
      AcceptedOn acceptances c jobId ∨ jobId ∈ jobIds := by
  constructor
  · rintro ⟨a,ha,hc,hj⟩
    rcases List.mem_append.mp ha with ha | ha
    · exact Or.inl ⟨a,ha,hc,hj⟩
    · obtain ⟨id,hid,rfl⟩ := List.mem_map.mp ha
      exact Or.inr (hj ▸ hid)
  · rintro (⟨a,ha,hc,hj⟩ | hid)
    · exact ⟨a,List.mem_append_left _ ha,hc,hj⟩
    · exact ⟨_,List.mem_append_right _ (List.mem_map_of_mem hid),rfl,rfl⟩

theorem Routed.connect (h : Routed log acceptances c conn) (hp : conn.phase = .unopened)
    (origin : Option String) :
    Routed log acceptances c { origin := origin, cursor := log.length, phase := .select } := by
  have hno : ∀ jobId, ¬AcceptedOn acceptances c jobId := by
    intro jobId
    rw [h.bound,h.unbound hp,hp]
    simp [binding,replyDue]
  constructor <;> simp [hno,binding,replyDue,Ordered]

/-- A frame binds fresh identifiers: nothing was broadcast for them yet, and no
event of theirs was sent. -/
theorem Routed.accept_own (h : Routed log acceptances c conn) (hp : conn.phase = .select)
    (handled : Handled) (hans : handled.outcome.acceptedJobIds ≠ [] →
      isQueued handled.outcome.response = true)
    (hnew : ∀ jobId ∈ handled.outcome.acceptedJobIds, ¬AcceptedOn acceptances c jobId)
    (hlog : ∀ jobId ∈ handled.outcome.acceptedJobIds, eventsFor jobId log = []) :
    Routed log (acceptances++handled.outcome.acceptedJobIds.map (fun id => ⟨c,id,log.length⟩)) c
      { conn with phase := .accepted handled } where
  behind := h.behind
  bound jobId := by
    rw [acceptedOn_append_own,h.bound,hp]
    simp [binding,replyDue]
  unbound := by simp
  answer outcome ho := by
    cases ho
    exact hans
  own := h.own
  acked _ := h.acked (by simp [hp])
  ordered := h.ordered
  delivered _ hl jobId ha := by
    rcases (acceptedOn_append_own _ _ jobId).mp ha with ha | hid
    · exact h.delivered (by simp [hp]) hl jobId ha
    · have hsent : eventsOf jobId conn.sent = [] := by
        refine eventsOf_nil (fun message hm he => ?_)
        obtain ⟨id,hb,hid'⟩ := h.own message hm
        rw [he] at hid'
        cases hid'
        exact hnew jobId hid ((h.bound jobId).mpr (Or.inl hb))
      have htake : eventsFor jobId (log.take conn.cursor) = [] := by
        have hall := hlog jobId hid
        rw [← List.take_append_drop conn.cursor log,eventsFor_append] at hall
        exact (List.append_eq_nil_iff.mp hall).1
      rw [hsent,htake]

theorem Routed.notified (h : Routed log acceptances c conn) (handled : Handled)
    (hp : conn.phase = .accepted handled) :
    Routed log acceptances c { conn with phase := .replying handled.outcome } where
  behind := h.behind
  bound jobId := by
    rw [h.bound,hp]
    rfl
  unbound := by simp
  answer outcome ho := by
    cases ho
    exact h.answer handled.outcome (by rw [hp]; rfl)
  own := h.own
  acked _ := h.acked (by simp [hp])
  ordered := h.ordered
  delivered _ := h.delivered (by simp [hp])

theorem Routed.close (h : Routed log acceptances c conn) (hp : conn.phase = .select) :
    Routed log acceptances c { conn with phase := .closed } where
  behind := h.behind
  bound jobId := by
    rw [h.bound,hp]
    rfl
  unbound := by simp
  answer := by simp [replyDue]
  own := h.own
  acked hc := absurd rfl hc
  ordered := h.ordered
  delivered hc := absurd rfl hc

theorem Routed.handleReply (h : Routed log acceptances c conn) (outcome : ClientTextOutcome)
    (hp : conn.phase = .replying outcome) (ok : Bool) :
    Routed log acceptances c (conn.handleReply outcome ok) := by
  have hbound : ∀ jobId, AcceptedOn acceptances c jobId ↔
      jobId ∈ conn.acceptedJobIds ∪ outcome.acceptedJobIds.toFinset := by
    intro jobId
    rw [h.bound,hp]
    simp [binding,replyDue]
  have hown : ∀ message, Frame.event message ∈ conn.sent →
      ∃ jobId ∈ conn.acceptedJobIds ∪ outcome.acceptedJobIds.toFinset,
        eventJobId message = some jobId := by
    intro message hm
    obtain ⟨jobId,hj,he⟩ := h.own message hm
    exact ⟨jobId,Finset.mem_union_left _ hj,he⟩
  cases ok with
  | false =>
    exact
      { behind := h.behind
        bound := fun jobId => by simpa [Connection.handleReply,binding,replyDue] using hbound jobId
        unbound := by simp [Connection.handleReply]
        answer := by simp [Connection.handleReply,replyDue]
        own := hown
        acked := fun hc => absurd rfl hc
        ordered := h.ordered
        delivered := fun hc => absurd rfl hc }
  | true =>
    refine
      { behind := h.behind
        bound := fun jobId => by simpa [Connection.handleReply,binding,replyDue] using hbound jobId
        unbound := by simp [Connection.handleReply]
        answer := by simp [Connection.handleReply,replyDue]
        own := fun message hm => hown message (by simpa [Connection.handleReply] using hm)
        acked := ?_
        ordered := h.ordered.snoc _ (by simp)
        delivered := ?_ }
    · intro _ jobId hj
      rcases Finset.mem_union.mp hj with hj | hj
      · obtain ⟨o,ho,ha⟩ := h.acked (by simp [hp]) jobId hj
        exact ⟨o,List.mem_append_left _ ho,ha⟩
      · have hmem := List.mem_toFinset.mp hj
        exact ⟨outcome,by simp [Connection.handleReply],
          h.answer outcome (by rw [hp]; rfl) (List.ne_nil_of_mem hmem),hmem⟩
    · intro _ hl jobId ha
      have hd := h.delivered (by simp [hp]) hl jobId ha
      simpa [Connection.handleReply,eventsOf_snoc,eventOf] using hd

theorem Routed.handlePing (h : Routed log acceptances c conn) (hp : conn.phase = .select)
    (ok : Bool) : Routed log acceptances c (conn.handlePing ok) := by
  cases ok with
  | false => exact h.close hp
  | true =>
    exact
      { behind := h.behind
        bound := h.bound
        unbound := h.unbound
        answer := h.answer
        own := fun message hm => h.own message (by simpa [Connection.handlePing] using hm)
        acked := fun hc jobId hj => by
          obtain ⟨o,ho,ha⟩ := h.acked hc jobId hj
          exact ⟨o,List.mem_append_left _ ho,ha⟩
        ordered := h.ordered.snoc _ (by simp)
        delivered := fun hc hl jobId ha => by
          simpa [Connection.handlePing,eventsOf_snoc,eventOf] using
            h.delivered hc hl jobId ha }

/-- The receiver moves on without sending: a skipped entry, or a lag. -/
theorem Routed.advance (h : Routed log acceptances c conn) (next : ℕ) (lagged : Bool)
    (hn : next ≤ log.length)
    (hd : conn.phase ≠ .closed → lagged = false → ∀ jobId, AcceptedOn acceptances c jobId →
      eventsOf jobId conn.sent = eventsFor jobId (log.take next)) :
    Routed log acceptances c { conn with cursor := next, lagged := lagged } where
  behind := hn
  bound := h.bound
  unbound := h.unbound
  answer := h.answer
  own := h.own
  acked := h.acked
  ordered := h.ordered
  delivered := hd

/-- The receiver moves on and forwards an event of one of its own jobs. -/
theorem Routed.forward (h : Routed log acceptances c conn) (hp : conn.phase = .select) (next : ℕ)
    (response : ServerMessage) (hn : next ≤ log.length)
    (hr : ∃ jobId ∈ conn.acceptedJobIds, eventJobId response = some jobId)
    (hd : conn.phase ≠ .closed → conn.lagged = false → ∀ jobId,
      AcceptedOn acceptances c jobId →
        eventsOf jobId (conn.sent++[.event response]) = eventsFor jobId (log.take next)) :
    Routed log acceptances c
      { conn with cursor := next, sent := conn.sent++[.event response] } := by
  obtain ⟨id,hid,hresp⟩ := hr
  obtain ⟨o,ho,hack⟩ := h.acked (by simp [hp]) id hid
  refine
    { behind := hn
      bound := h.bound
      unbound := h.unbound
      answer := h.answer
      own := ?_
      acked := ?_
      ordered := h.ordered.snoc _ (fun message hmsg => by
        cases hmsg
        exact ⟨id,o,hresp,ho,hack⟩)
      delivered := hd }
  · intro message hmsg
    rcases List.mem_append.mp hmsg with hmsg | hmsg
    · exact h.own message hmsg
    · obtain rfl : message = response := by simpa using hmsg
      exact ⟨id,hid,hresp⟩
  · intro hc jobId hj
    obtain ⟨o',ho',ha'⟩ := h.acked hc jobId hj
    exact ⟨o',List.mem_append_left _ ho',ha'⟩

theorem Routed.handleEvent (h : Routed log acceptances c conn) (hp : conn.phase = .select)
    (ok : Bool) (conn' : Connection) (he : conn.handleEvent log ok = some conn') :
    Routed log acceptances c conn' := by
  have hmem : ∀ jobId, AcceptedOn acceptances c jobId → jobId ∈ conn.acceptedJobIds := by
    intro jobId ha
    simpa [hp,binding,replyDue] using (h.bound jobId).mp ha
  have hle := recv_le statusEventCapacity log conn.cursor h.behind
  unfold Connection.handleEvent at he
  cases hr : recv statusEventCapacity log conn.cursor with
  | mk received next =>
    rw [hr] at hle
    cases received with
    | pending => simp [hr] at he
    | lagged skipped =>
      simp only [hr, Option.some.injEq] at he
      subst he
      exact h.advance next true hle (by simp)
    | entry entry =>
      obtain ⟨-,hentry,htake⟩ := recv_entry _ _ _ _ _ hr
      have hev : ∀ jobId, eventsFor jobId (log.take next) = eventsFor jobId (log.take conn.cursor)++
          (statusMessageForConnection entry {jobId}).toList := by
        intro jobId
        rw [htake,eventsFor_snoc]
      cases hm : statusMessageForConnection entry conn.acceptedJobIds with
      | none =>
        simp only [hr, hm, Option.some.injEq] at he
        subst he
        refine h.advance next conn.lagged hle (fun hc hl jobId ha => ?_)
        have hf := forwarded_event entry conn.acceptedJobIds jobId (hmem jobId ha)
        rw [hm] at hf
        rw [hev jobId,← hf,h.delivered hc hl jobId ha]
        simp
      | some response =>
        obtain ⟨id,hid,-,hresp,-⟩ := statusMessage_some hm
        cases ok with
        | false =>
          simp only [hr, hm, Bool.false_eq_true, if_false, Option.some.injEq] at he
          subst he
          have hclosed := h.close hp
          exact hclosed.advance next conn.lagged hle (fun hc => absurd rfl hc)
        | true =>
          simp only [hr, hm, if_true, Option.some.injEq] at he
          subst he
          refine h.forward hp next response hle ⟨id,hid,hresp⟩ (fun hc hl jobId ha => ?_)
          have hf := forwarded_event entry conn.acceptedJobIds jobId (hmem jobId ha)
          rw [hm,Option.bind_some] at hf
          rw [hev jobId,← hf,eventsOf_snoc,h.delivered hc hl jobId ha]

end Connections

end YinShu.ConnectionRouting
