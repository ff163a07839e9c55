import YinShu.ConnectionRouting

/-!
# Routing of status events

Every status event of a job goes to the connection that submitted the job and
to no other. A connection subscribes before it reads its first frame, binds
the identifiers of a frame before it looks at the next event, and job
identifiers are never reused; so events that the worker broadcasts while the
frame is still being handled are neither lost nor sent ahead of the reply.
-/

set_option autoImplicit false

namespace YinShu.StatusRouting
open YinShu.Protocol YinShu.PrintQueue YinShu.ClientText YinShu.Acceptance YinShu.AgentSystem
open YinShu.ConnectionRouting YinShu.Signals YinShu.LabelledRun

structure Inv (s : System) : Prop where
  nodup : (s.acceptances.map JobAcceptance.jobId).Nodup
  seen : ∀ jobId ∈ s.acceptances.map JobAcceptance.jobId, jobId ∈ s.queue.seenJobIds
  waiting : ∀ queued ∈ s.queue.pending,
    queued.jobId ∈ s.acceptances.map JobAcceptance.jobId
  working : ∀ queued, s.worker = .processing queued →
    queued.jobId ∈ s.acceptances.map JobAcceptance.jobId
  logged : ∀ entry ∈ s.log, ∃ jobId ∈ s.acceptances.map JobAcceptance.jobId,
    entry.jobId = some jobId
  early : ∀ a ∈ s.acceptances,
    a.logLength ≤ s.log.length ∧ eventsFor a.jobId (s.log.take a.logLength) = []
  routed : ∀ c, Routed s.log s.acceptances c (s.conns c)

section Runs

variable {env : ServerEnv} {s t : System}

theorem Inv.setConn (h : Inv s) (c : ℕ) (conn : Connection)
    (hc : Routed s.log s.acceptances c conn) : Inv (s.setConn c conn) where
  nodup := h.nodup
  seen := h.seen
  waiting := h.waiting
  working := h.working
  logged := h.logged
  early := h.early
  routed c' := by
    by_cases he : c' = c
    · subst he
      simpa [System.setConn] using hc
    · simpa [System.setConn,he] using h.routed c'

/-- Jobs that were never seen have no event in the channel. -/
theorem Inv.eventsFor_unseen (h : Inv s) (jobId : String) (hj : jobId ∉ s.queue.seenJobIds) :
    eventsFor jobId s.log = [] := by
  refine eventsFor_nil (fun entry he hid => ?_)
  obtain ⟨id,hm,hid'⟩ := h.logged entry he
  rw [hid] at hid'
  cases hid'
  exact hj (h.seen jobId hm)

section Text

variable (env s)
variable (c : ℕ) (config : Settings.AgentConfig) (text : String)

theorem handleText_acceptances : (s.handleText env c config text).acceptances =
    s.acceptances++(handleClientText env config (s.conns c).origin text
      s.queue).outcome.acceptedJobIds.map (fun id => ⟨c,id,s.log.length⟩) := by
  rw [(handleClientText_growth env config (s.conns c).origin text s.queue).ids_eq,List.map_map]
  rfl

theorem handleText_jobIds : (s.handleText env c config text).acceptances.map JobAcceptance.jobId =
    s.acceptances.map JobAcceptance.jobId++(handleClientText env config (s.conns c).origin text
      s.queue).outcome.acceptedJobIds := by
  rw [handleText_acceptances,List.map_append,List.map_map]
  exact congrArg _ (List.map_id'' (fun _ => rfl) _)

theorem handleText_fresh : ∀ jobId ∈ (handleClientText env config (s.conns c).origin text
    s.queue).outcome.acceptedJobIds, jobId ∉ s.queue.seenJobIds := by
  have hg := handleClientText_growth env config (s.conns c).origin text s.queue
  rw [hg.ids_eq]
  intro jobId hj
  obtain ⟨queued,hq,rfl⟩ := List.mem_map.mp hj
  exact hg.ids_fresh queued hq

end Text

theorem Inv.handleText (h : Inv s) (c : ℕ) (config : Settings.AgentConfig) (text : String)
    (hp : (s.conns c).phase = .select) : Inv (s.handleText env c config text) := by
  have hg := handleClientText_growth env config (s.conns c).origin text s.queue
  have hacc := handleText_acceptances env s c config text
  have hfresh := handleText_fresh env s c config text
  have hids := handleText_jobIds env s c config text
  have hold : ∀ jobId ∈ s.acceptances.map JobAcceptance.jobId,
      jobId ∈ (s.handleText env c config text).acceptances.map JobAcceptance.jobId := by
    intro jobId hj
    rw [hids]
    exact List.mem_append_left _ hj
  constructor
  · rw [hids,List.nodup_append]
    refine ⟨h.nodup,by rw [hg.ids_eq]; exact hg.ids_nodup,?_⟩
    rintro jobId hj _ hj' rfl
    exact hfresh jobId hj' (h.seen jobId hj)
  · intro jobId hj
    change jobId ∈ (handleClientText env config (s.conns c).origin text s.queue).queue.seenJobIds
    rw [hg.seen_eq,← hg.ids_eq,Finset.mem_union,List.mem_toFinset]
    rw [hids] at hj
    exact (List.mem_append.mp hj).imp_left (h.seen jobId)
  · intro queued hq
    change queued ∈ (handleClientText env config (s.conns c).origin text s.queue).queue.pending
      at hq
    rw [hg.pending_eq] at hq
    rcases List.mem_append.mp hq with hq | hq
    · exact hold _ (h.waiting queued hq)
    · rw [hids,hg.ids_eq]
      exact List.mem_append_right _ (List.mem_map_of_mem hq)
  · exact fun queued hw => hold _ (h.working queued hw)
  · intro entry he
    obtain ⟨jobId,hj,hid⟩ := h.logged entry he
    exact ⟨jobId,hold jobId hj,hid⟩
  · intro a ha
    rw [hacc] at ha
    rcases List.mem_append.mp ha with ha | ha
    · exact h.early a ha
    · obtain ⟨jobId,hj,rfl⟩ := List.mem_map.mp ha
      refine ⟨Nat.le_refl _,?_⟩
      change eventsFor jobId (s.log.take s.log.length) = []
      rw [List.take_length]
      exact h.eventsFor_unseen jobId (hfresh jobId hj)
  · intro c'
    rw [hacc]
    by_cases he : c' = c
    · subst he
      have hnew : ∀ jobId ∈ (handleClientText env config (s.conns c').origin text
          s.queue).outcome.acceptedJobIds, ¬AcceptedOn s.acceptances c' jobId := by
        rintro jobId hj ⟨a,ha,-,rfl⟩
        exact hfresh a.jobId hj (h.seen a.jobId (List.mem_map_of_mem ha))
      have hr := (h.routed c').accept_own hp _ hg.queued hnew
        (fun jobId hj => h.eventsFor_unseen jobId (hfresh jobId hj))
      simpa [System.handleText] using hr
    · have hr := (h.routed c').accept_other
        ((handleClientText env config (s.conns c).origin text
          s.queue).outcome.acceptedJobIds.map (fun id => ⟨c,id,s.log.length⟩))
        (by
          intro a ha
          obtain ⟨jobId,-,rfl⟩ := List.mem_map.mp ha
          exact fun hcc => he hcc.symm)
      simpa [System.handleText,he] using hr

/-- Steps that move the worker, the permit or the head of the queue only. -/
theorem Inv.frame (h : Inv s) (hlog : t.log = s.log) (hacc : t.acceptances = s.acceptances)
    (hconns : t.conns = s.conns) (hseen : t.queue.seenJobIds = s.queue.seenJobIds)
    (hpending : ∀ queued ∈ t.queue.pending, queued ∈ s.queue.pending)
    (hworker : ∀ queued, t.worker = .processing queued →
      queued ∈ s.queue.pending ∨ s.worker = .processing queued) : Inv t where
  nodup := hacc ▸ h.nodup
  seen := by rw [hacc,hseen]; exact h.seen
  waiting queued hq := by rw [hacc]; exact h.waiting queued (hpending queued hq)
  working queued hw := by
    rw [hacc]
    exact (hworker queued hw).elim (h.waiting queued) (h.working queued)
  logged := by rw [hacc,hlog]; exact h.logged
  early := by rw [hacc,hlog]; exact h.early
  routed := by rw [hacc,hlog,hconns]; exact h.routed

theorem Inv.publish (h : Inv s) (queued : QueuedJob) (hw : s.worker = .processing queued)
    (timestamp : String) (status : JobStatus) (message : String) :
    Inv { s with log := s.log++[logEntry queued timestamp status message] } where
  nodup := h.nodup
  seen := h.seen
  waiting := h.waiting
  working := h.working
  logged entry he := by
    rcases List.mem_append.mp he with he | he
    · exact h.logged entry he
    · rw [List.mem_singleton.mp he]
      exact ⟨queued.jobId,h.working queued hw,rfl⟩
  early a ha := by
    obtain ⟨hle,hnil⟩ := h.early a ha
    refine ⟨Nat.le_trans hle (by simp),?_⟩
    rw [List.take_append_of_le_length hle]
    exact hnil
  routed c := (h.routed c).publish _

theorem Inv.handleNotify (h : Inv s) (c : ℕ) (handled : Handled)
    (hp : (s.conns c).phase = .accepted handled) : Inv (s.handleNotify c handled) := by
  have hs : Inv (if handled.notify then s.notifyOne else s) := by
    cases handled.notify with
    | false => exact h
    | true =>
      cases hw : s.worker <;>
        exact h.frame (by simp [System.notifyOne,hw]) (by simp [System.notifyOne,hw])
          (by simp [System.notifyOne,hw]) (by simp [System.notifyOne,hw])
          (by simp [System.notifyOne,hw]) (by simp [System.notifyOne,hw])
  refine hs.setConn c _ ?_
  have hr := (h.routed c).notified handled hp
  cases handled.notify with
  | false => exact hr
  | true => cases hw : s.worker <;> simpa [System.notifyOne,hw] using hr

theorem socketStep_inv (c : ℕ) (l : SocketStep) (h : Inv s)
    (hs : socketStep env s c l = some t) : Inv t := by
  rcases socketStep_cases hs with ⟨o,hp,rfl⟩ | ⟨config,text,hp,rfl⟩ | ⟨handled,hp,rfl⟩ |
    ⟨o,ok,hp,rfl⟩ | ⟨ok,hp,rfl⟩ | rfl | ⟨hp,rfl⟩ | ⟨ok,conn,hp,he,rfl⟩
  · exact h.setConn c _ ((h.routed c).connect hp o)
  · exact h.handleText c config text hp
  · exact h.handleNotify c handled hp
  · exact h.setConn c _ ((h.routed c).handleReply o hp ok)
  · exact h.setConn c _ ((h.routed c).handlePing hp ok)
  · exact h
  · exact h.setConn c _ ((h.routed c).close hp)
  · exact h.setConn c _ ((h.routed c).handleEvent hp ok conn he)

theorem popStep_inv (h : Inv s) : Inv (popStep s) := by
  rcases popNext_spec s.queue with ⟨-,hpop⟩ | ⟨queued,rest,hq,hpop⟩
  · simp only [popStep,hpop]
    exact h.frame rfl rfl rfl rfl (fun _ hm => hm) (by simp)
  · simp only [popStep,hpop]
    refine h.frame rfl rfl rfl rfl (fun j hm => ?_) (fun j hj => ?_)
    · rw [hq]
      exact List.mem_cons_of_mem _ hm
    · cases hj
      rw [hq]
      exact Or.inl List.mem_cons_self

theorem workerStep_inv (l : WorkerStep) (h : Inv s) (hs : workerStep s l = some t) : Inv t := by
  rcases workerStep_cases hs with ⟨queued,ts,st,m,hw,rfl⟩ | ⟨-,rfl⟩ | ⟨-,-,rfl⟩ |
    ⟨w,permit,hb,rfl⟩
  · exact h.publish queued hw ts st m
  · exact popStep_inv h
  · exact h.frame rfl rfl rfl rfl (fun _ hm => hm) (by simp)
  · refine h.frame rfl rfl rfl rfl (fun _ hm => hm) ?_
    rcases hb with rfl | rfl | rfl <;> simp

theorem step_inv (s : System) (l : Label) (t : System) (h : Inv s) (hs : step env s l = some t) :
    Inv t := by
  cases l with
  | socket c l => exact socketStep_inv c l h hs
  | worker l => exact workerStep_inv l h hs
  | cancel =>
    cases hs
    exact h.frame rfl rfl rfl rfl (fun _ hm => hm) (fun _ hw => Or.inr hw)

theorem initial_inv : Inv {} := by
  constructor <;> simp
  intro c
  constructor <;> simp [AcceptedOn,binding,replyDue,Ordered]

/-- The state has moved on, at most in one connection and the notification. -/
def SameHistory (s t : System) : Prop := t.log = s.log ∧ t.acceptances = s.acceptances

/-- A loop that is handling a frame gets back to `select` by its own steps. -/
theorem settle (env : ServerEnv) (s : System) (c : ℕ) (ho : (s.conns c).phase ≠ .unopened)
    (hc : (s.conns c).phase ≠ .closed) :
    ∃ (ls : List SocketStep) (t : System), run (step env) (ls.map (.socket c)) s = some t ∧
      SameHistory s t ∧ (t.conns c).phase = .select ∧ (t.conns c).cursor = (s.conns c).cursor ∧
      (t.conns c).lagged = (s.conns c).lagged := by
  cases hp : (s.conns c).phase with
  | unopened => exact absurd hp ho
  | closed => exact absurd hp hc
  | select => exact ⟨[],s,rfl,⟨rfl,rfl⟩,hp,rfl,rfl⟩
  | replying outcome =>
    exact ⟨[.reply true],s.setConn c ((s.conns c).handleReply outcome true),
      by simp [run,step,socketStep,hp],⟨rfl,rfl⟩,by simp [System.setConn,Connection.handleReply],
      by simp [System.setConn,Connection.handleReply],
      by simp [System.setConn,Connection.handleReply]⟩
  | accepted handled =>
    have hn : SameHistory s (s.handleNotify c handled) := by
      cases handled with
      | mk outcome q notify =>
        cases notify <;> cases hw : s.worker <;>
          simp [SameHistory,System.handleNotify,System.setConn,System.notifyOne,hw]
    have hphase : (s.handleNotify c handled).conns c =
        { s.conns c with phase := .replying handled.outcome } := by
      simp [System.handleNotify,System.setConn]
    refine ⟨[.notify,.reply true],(s.handleNotify c handled).setConn c
      (((s.handleNotify c handled).conns c).handleReply handled.outcome true),?_,hn,?_,?_,?_⟩
    · simp [run,step,socketStep,hp,hphase]
    · simp [System.setConn,Connection.handleReply]
    · simp [System.setConn,Connection.handleReply,hphase]
    · simp [System.setConn,Connection.handleReply,hphase]

theorem handleEvent_within (conn : Connection) (log : List TaskLogEntry)
    (hlt : conn.cursor < log.length) (hcap : log.length-conn.cursor ≤ statusEventCapacity) :
    ∃ conn', conn.handleEvent log true = some conn' ∧ conn'.phase = conn.phase ∧
      conn'.cursor = conn.cursor+1 ∧ conn'.lagged = conn.lagged := by
  obtain ⟨entry,hr⟩ := recv_within statusEventCapacity log conn.cursor hlt hcap
  unfold Connection.handleEvent
  rw [hr]
  cases hm : statusMessageForConnection entry conn.acceptedJobIds with
  | none => exact ⟨{ conn with cursor := conn.cursor+1 },by simp [hm],rfl,rfl,rfl⟩
  | some response =>
    exact ⟨{ conn with cursor := conn.cursor+1, sent := conn.sent++[.event response] },
      by simp [hm],rfl,rfl,rfl⟩

/-- A receiver within the capacity catches up by reading on. -/
theorem drain (env : ServerEnv) (n : ℕ) (s : System) (c : ℕ) (hp : (s.conns c).phase = .select)
    (hn : s.log.length = (s.conns c).cursor+n) (hcap : n ≤ statusEventCapacity) :
    ∃ t, run (step env) (List.replicate n (.socket c (.event true))) s = some t ∧
      SameHistory s t ∧ (t.conns c).phase = .select ∧ (t.conns c).cursor = s.log.length ∧
      (t.conns c).lagged = (s.conns c).lagged := by
  induction n generalizing s with
  | zero => exact ⟨s,rfl,⟨rfl,rfl⟩,hp,hn.symm,rfl⟩
  | succ n ih =>
    obtain ⟨conn,he,hphase,hcur,hlag⟩ := handleEvent_within (s.conns c) s.log
      (by omega) (by omega)
    have hget : (s.setConn c conn).conns c = conn := by simp [System.setConn]
    obtain ⟨t,hr,hs,htp,htc,htl⟩ := ih (s.setConn c conn) (by rw [hget,hphase,hp])
      (by rw [hget,hcur]; simp only [System.setConn]; omega) (by omega)
    refine ⟨t,?_,hs,htp,htc,by rw [htl,hget,hlag]⟩
    rw [List.replicate_succ,run,step,socketStep,if_pos hp,he]
    exact hr

theorem Inv.accepted_unique (h : Inv s) {c c' : ℕ} {jobId : String}
    (hc : AcceptedOn s.acceptances c jobId) (hc' : AcceptedOn s.acceptances c' jobId) :
    c = c' := by
  obtain ⟨a,ha,rfl,rfl⟩ := hc
  obtain ⟨a',ha',rfl,hj⟩ := hc'
  rw [List.inj_on_of_nodup_map h.nodup ha' ha hj]

theorem Inv.sent_accepted (h : Inv s) {c : ℕ} {message : ServerMessage}
    (hm : Frame.event message ∈ (s.conns c).sent) :
    ∃ jobId, eventJobId message = some jobId ∧ AcceptedOn s.acceptances c jobId := by
  obtain ⟨jobId,hj,he⟩ := (h.routed c).own message hm
  exact ⟨jobId,he,((h.routed c).bound jobId).mpr (Or.inl hj)⟩

theorem Inv.eventsOf_accepted (h : Inv s) {c : ℕ} {jobId : String}
    (hne : eventsOf jobId (s.conns c).sent ≠ []) : AcceptedOn s.acceptances c jobId := by
  by_contra hno
  refine hne (eventsOf_nil (fun message hm he => ?_))
  obtain ⟨id,hid,hacc⟩ := h.sent_accepted hm
  rw [he] at hid
  cases hid
  exact hno hacc

/-- What an open receiver that never lagged has been sent of a job. -/
theorem Inv.delivered_since (h : Inv s) (a : JobAcceptance) (ha : a ∈ s.acceptances)
    (hc : (s.conns a.conn).phase ≠ .closed) (hl : (s.conns a.conn).lagged = false) :
    eventsOf a.jobId (s.conns a.conn).sent =
      eventsFor a.jobId ((s.log.take (s.conns a.conn).cursor).drop a.logLength) := by
  rw [(h.routed a.conn).delivered hc hl a.jobId ⟨a,ha,rfl,rfl⟩]
  have hnil : eventsFor a.jobId ((s.log.take (s.conns a.conn).cursor).take a.logLength) = [] := by
    have hall := (h.early a ha).2
    rw [← List.take_append_drop (s.conns a.conn).cursor (s.log.take a.logLength),
      eventsFor_append] at hall
    rw [List.take_take,Nat.min_comm,← List.take_take]
    exact (List.append_eq_nil_iff.mp hall).1
  conv_lhs => rw [← List.take_append_drop a.logLength (s.log.take (s.conns a.conn).cursor)]
  rw [eventsFor_append,hnil,List.nil_append]

theorem Inv.catch_up (h : Inv s) (a : JobAcceptance) (ha : a ∈ s.acceptances)
    (hc : (s.conns a.conn).phase ≠ .closed) (hl : (s.conns a.conn).lagged = false)
    (hcap : s.log.length-(s.conns a.conn).cursor ≤ statusEventCapacity) :
    ∃ (ls : List SocketStep) (t : System), run (step env) (ls.map (.socket a.conn)) s = some t ∧
      eventsOf a.jobId (t.conns a.conn).sent = eventsFor a.jobId (s.log.drop a.logLength) := by
  have ho : (s.conns a.conn).phase ≠ .unopened := by
    intro hu
    have hb := ((h.routed a.conn).bound a.jobId).mp ⟨a,ha,rfl,rfl⟩
    rw [(h.routed a.conn).unbound hu,hu] at hb
    simp [binding,replyDue] at hb
  obtain ⟨ls,u,hu,⟨hlog,hacc⟩,hup,huc,hul⟩ := settle env s a.conn ho hc
  have hb := (h.routed a.conn).behind
  obtain ⟨t,ht,⟨hlog',hacc'⟩,htp,htc,htl⟩ := drain env
    (s.log.length-(s.conns a.conn).cursor) u a.conn hup (by rw [hlog,huc]; omega) hcap
  have hrun : run (step env) ((ls++List.replicate (s.log.length-(s.conns a.conn).cursor)
      (SocketStep.event true)).map (.socket a.conn)) s = some t := by
    rw [List.map_append,run_append,hu,List.map_replicate]
    exact ht
  have hinv : Inv t := run_invariant (step env) Inv step_inv _ s t h hrun
  refine ⟨_,t,hrun,?_⟩
  rw [hinv.delivered_since a (by rw [hacc',hacc]; exact ha) (by simp [htp]) (by rw [htl,hul,hl]),
    htc,hlog',List.take_length,hlog]

end Runs

/-- Events of a job go to the connection that submitted it and to no other; while
that connection is open and keeps up, it is sent all of them, once, in order and
after the acknowledgement. -/
theorem status_routing (env : ServerEnv) (ls : List Label) (s : System)
    (hr : run (step env) ls {} = some s) :
    (∀ c message, Frame.event message ∈ (s.conns c).sent →
      ∃ jobId, eventJobId message = some jobId ∧ AcceptedOn s.acceptances c jobId) ∧
    (∀ c c' jobId, eventsOf jobId (s.conns c).sent ≠ [] →
      eventsOf jobId (s.conns c').sent ≠ [] → c = c') ∧
    (∀ c, Ordered (s.conns c).sent) ∧
    (∀ a ∈ s.acceptances, eventsFor a.jobId (s.log.take a.logLength) = [] ∧
      ((s.conns a.conn).phase ≠ .closed → (s.conns a.conn).lagged = false →
        eventsOf a.jobId (s.conns a.conn).sent =
          eventsFor a.jobId ((s.log.take (s.conns a.conn).cursor).drop a.logLength) ∧
        (s.log.length-(s.conns a.conn).cursor ≤ statusEventCapacity →
          ∃ (ls' : List SocketStep) (t : System),
            run (step env) (ls'.map (.socket a.conn)) s = some t ∧
              eventsOf a.jobId (t.conns a.conn).sent =
                eventsFor a.jobId (s.log.drop a.logLength)))) := by
  have h : Inv s := run_invariant (step env) Inv step_inv ls {} s initial_inv hr
  refine ⟨fun c message hm => h.sent_accepted hm,?_,fun c => (h.routed c).ordered,?_⟩
  · exact fun c c' jobId hc hc' => h.accepted_unique (h.eventsOf_accepted hc)
      (h.eventsOf_accepted hc')
  · intro a ha
    exact ⟨(h.early a ha).2,fun hc hl => ⟨h.delivered_since a ha hc hl,
      fun hcap => h.catch_up a ha hc hl hcap⟩⟩

/-- The worker broadcasts while the frame is still being handled. -/
def eagerSchedule : List Label :=
  [.socket 0 (.connect none),.socket 0 (.text Settings.AgentConfig.default rawFrame),
    .worker .check,.worker .pop,.worker (.broadcast "2026-01-01T00:00:00Z" .queued "queued"),
    .socket 0 .notify,.socket 0 (.reply true),.socket 0 (.event true)]

theorem eagerSchedule_runs : (run (step rawEnv) eagerSchedule {}).isSome = true := by
  decide

theorem status_routing_eager :
    Ordered (((run (step rawEnv) eagerSchedule {}).get eagerSchedule_runs).conns 0).sent ∧
      eventsOf "RAW-001"
        (((run (step rawEnv) eagerSchedule {}).get eagerSchedule_runs).conns 0).sent =
        [.jobStatus (some "REQ-RAW") "RAW-001" .queued (some "queued")] :=
  ⟨(status_routing rawEnv eagerSchedule _ (Option.some_get _).symm).2.2.1 0,by decide⟩

end YinShu.StatusRouting
