import YinShu.Admission
import YinShu.StatusRouting

/-!
# Whose jobs are printed

No step but the start of a socket loop opens a connection, and that step comes after
both checks of its request. So whatever the order of the steps, every job that waits or
is at work was accepted on a connection that passed the checks, and it may fetch from a
loopback origin only where that is the origin of the allowed page.
-/

set_option autoImplicit false

namespace YinShu.AdmittedJobs
open YinShu.Protocol YinShu.Settings YinShu.PrintQueue YinShu.ClientText YinShu.Acceptance
open YinShu.LoopbackGrant YinShu.AgentSystem YinShu.ConnectionRouting YinShu.LabelledRun
open YinShu.Admission

section Agent

variable {env : ServerEnv} {s t : System} {queued : QueuedJob}

/-- A connection that has been opened stays opened, and keeps its origin. -/
def Kept (conn after : Connection) : Prop :=
  after.origin = conn.origin ∧ (after.phase = .unopened ↔ conn.phase = .unopened)

theorem handleEvent_kept {conn after : Connection} {log : List TaskLogEntry} {ok : Bool}
    (hp : conn.phase = .select) (h : conn.handleEvent log ok = some after) : Kept conn after := by
  unfold Connection.handleEvent at h
  split at h
  · cases h
  · cases h
    exact ⟨rfl,Iff.rfl⟩
  · split at h
    · cases h
      exact ⟨rfl,Iff.rfl⟩
    · cases ok <;> cases h <;> exact ⟨rfl,by simp [hp]⟩

theorem setConn_kept {c : ℕ} {conn : Connection} (h : Kept (s.conns c) conn) (c' : ℕ) :
    Kept (s.conns c') ((s.setConn c conn).conns c') := by
  by_cases hc : c' = c
  · subst hc
    simpa [System.setConn] using h
  · simp [System.setConn,hc,Kept]

theorem notify_keeps (b : Bool) : (if b then s.notifyOne else s).conns = s.conns ∧
    (if b then s.notifyOne else s).acceptances = s.acceptances := by
  cases b
  · exact ⟨rfl,rfl⟩
  · cases hw : s.worker <;> simp [System.notifyOne,hw]

theorem step_unopened {c : ℕ} {l : SocketStep} (hp : (s.conns c).phase = .unopened)
    (hl : isConnect (.socket c l) = false) : AgentSystem.step env s (.socket c l) = none := by
  cases l with
  | connect origin => cases hl
  | _ => simp [AgentSystem.step,socketStep,hp]

/-- Apart from the start of a socket loop, no step opens a connection or changes an origin. -/
theorem agent_kept {l : AgentSystem.Label} (hl : isConnect l = false)
    (h : AgentSystem.step env s l = some t) (c : ℕ) : Kept (s.conns c) (t.conns c) := by
  cases l with
  | cancel =>
    cases h
    exact ⟨rfl,Iff.rfl⟩
  | worker l =>
    rcases workerStep_cases h with ⟨queued,ts,st,m,hw,rfl⟩ | ⟨-,rfl⟩ | ⟨-,-,rfl⟩ | ⟨w,permit,-,rfl⟩
    · exact ⟨rfl,Iff.rfl⟩
    · have hconns : (popStep s).conns = s.conns := by
        unfold popStep
        split <;> rfl
      rw [hconns]
      exact ⟨rfl,Iff.rfl⟩
    · exact ⟨rfl,Iff.rfl⟩
    · exact ⟨rfl,Iff.rfl⟩
  | socket c' l =>
    rcases socketStep_cases h with ⟨o,hp,rfl⟩ | ⟨config,text,hp,rfl⟩ | ⟨handled,hp,rfl⟩ |
      ⟨o,ok,hp,rfl⟩ | ⟨ok,hp,rfl⟩ | rfl | ⟨hp,rfl⟩ | ⟨ok,conn,hp,hc,rfl⟩
    · rw [step_unopened hp hl] at h
      cases h
    · have hkept : Kept (s.conns c') { s.conns c' with
          phase := .accepted (handleClientText env config (s.conns c').origin text s.queue) } :=
        ⟨rfl,by simp [hp]⟩
      exact setConn_kept hkept c
    · have hkept : Kept (s.conns c') { s.conns c' with phase := .replying handled.outcome } :=
        ⟨rfl,by simp [hp]⟩
      have hset := setConn_kept hkept c
      simpa [System.handleNotify,System.setConn,(notify_keeps handled.notify).1] using hset
    · have hkept : Kept (s.conns c') ((s.conns c').handleReply o ok) := by
        cases ok <;> exact ⟨rfl,by simp [Connection.handleReply,hp]⟩
      exact setConn_kept hkept c
    · have hkept : Kept (s.conns c') ((s.conns c').handlePing ok) := by
        cases ok <;> exact ⟨rfl,by simp [Connection.handlePing,hp]⟩
      exact setConn_kept hkept c
    · exact ⟨rfl,Iff.rfl⟩
    · have hkept : Kept (s.conns c') { s.conns c' with phase := .closed } := ⟨rfl,by simp [hp]⟩
      exact setConn_kept hkept c
    · exact setConn_kept (handleEvent_kept hp hc) c

/-- A socket loop starts with the origin of its request and leaves the others alone. -/
theorem connect_conns {c : ℕ} {origin : Option String}
    (h : AgentSystem.step env s (.socket c (.connect origin)) = some t) :
    (t.conns c).origin = origin ∧ ∀ c', c' = c ∨ Kept (s.conns c') (t.conns c') := by
  simp only [AgentSystem.step,socketStep,Option.ite_none_right_eq_some,Option.some.injEq] at h
  obtain ⟨-,rfl⟩ := h
  refine ⟨by simp [System.setConn],fun c' => ?_⟩
  by_cases hc : c' = c
  · exact .inl hc
  · exact .inr (by simp [System.setConn,hc,Kept])

theorem connect_kept {c c' : ℕ} {origin : Option String}
    (h : AgentSystem.step env s (.socket c (.connect origin)) = some t)
    (hopen : (s.conns c').phase ≠ .unopened) : Kept (s.conns c') (t.conns c') := by
  refine ((connect_conns h).2 c').resolve_left ?_
  rintro rfl
  simp [AgentSystem.step,socketStep,hopen] at h

/-- The job waits or is at work. -/
def InHand (queued : QueuedJob) (s : System) : Prop :=
  queued ∈ s.queue.pending ∨ s.worker = .processing queued

/-- The loopback origin that the job may fetch from is the one of the page itself. -/
def Granted (p : Parsers) (origin : Option String) (queued : QueuedJob) : Prop :=
  ∀ o, queued.htmlLocalOrigin = some o → ∃ header headerUrl, origin = some header ∧
    p.url header = some headerUrl ∧ isExactLoopbackUrl headerUrl = true ∧
      headerUrl.origin.asciiSerialization = o

def Traced (p : Parsers) (s : System) (queued : QueuedJob) (c : ℕ) : Prop :=
  AcceptedOn s.acceptances c queued.jobId ∧ (s.conns c).phase ≠ .unopened ∧
    Granted p (s.conns c).origin queued

theorem newJobs_granted {config : AgentConfig} {origin : Option String} {text : String}
    {q : QueueState} (h : queued ∈ newJobs q (handleClientText env config origin text q)) :
    Granted env.parsers origin queued := by
  rcases handleClientText_cases env config origin text q with hr | ⟨m,r,b,jobs,grant,-,ha⟩
  · simp [newJobs,hr.1] at h
  · have hjobs : newJobs q (handleClientText env config origin text q) =
        queuedJobs env.parsers r b grant jobs := by
      simp [newJobs,ha.queue_eq,QueueState.enqueue]
    rw [hjobs] at h
    obtain ⟨job,-,rfl⟩ := List.mem_map.mp h
    intro o ho
    obtain ⟨-,-,header,headerUrl,-,-,-,hh,hu,hs,hl⟩ := accepted_grant_sound ha job o ho
    exact ⟨header,headerUrl,hh,hu,hl,hs⟩

theorem popStep_inHand (h : InHand queued (popStep s)) : InHand queued s := by
  rcases popNext_spec s.queue with ⟨hnil,hpop⟩ | ⟨head,rest,hq,hpop⟩
  · rcases h with h | h
    · simp [popStep,hpop,hnil] at h
    · simp [popStep,hpop] at h
  · left
    rw [hq]
    rcases h with h | h
    · simp only [popStep,hpop] at h
      exact List.mem_cons_of_mem _ h
    · simp only [popStep,hpop,WorkerPhase.processing.injEq] at h
      rw [h]
      exact List.mem_cons_self

theorem notify_inHand {b : Bool} (h : InHand queued (if b then s.notifyOne else s)) :
    InHand queued s := by
  cases b
  · exact h
  · cases hw : s.worker <;> simp_all [System.notifyOne,InHand]

/-- A job comes into hand by a frame only. -/
theorem inHand_step {l : AgentSystem.Label} (hs : AgentSystem.step env s l = some t)
    (h : InHand queued t) : InHand queued s ∨ ∃ c config text,
      t = s.handleText env c config text ∧
      queued ∈ newJobs s.queue (handleClientText env config (s.conns c).origin text s.queue) := by
  cases l with
  | cancel =>
    cases hs
    exact .inl h
  | worker l =>
    left
    rcases workerStep_cases hs with ⟨job,ts,st,m,hw,rfl⟩ | ⟨-,rfl⟩ | ⟨-,-,rfl⟩ | ⟨w,permit,hb,rfl⟩
    · exact h
    · exact popStep_inHand h
    · exact .inl (h.resolve_right (by simp))
    · rcases hb with rfl | rfl | rfl <;> exact .inl (h.resolve_right (by simp))
  | socket c l =>
    rcases socketStep_cases hs with ⟨o,hp,rfl⟩ | ⟨config,text,hp,rfl⟩ | ⟨handled,hp,rfl⟩ |
      ⟨o,ok,hp,rfl⟩ | ⟨ok,hp,rfl⟩ | rfl | ⟨hp,rfl⟩ | ⟨ok,conn,hp,-,rfl⟩
    · exact .inl h
    · have hg := handleClientText_growth env config (s.conns c).origin text s.queue
      rcases h with h | h
      · change queued ∈ (handleClientText env config (s.conns c).origin text s.queue).queue.pending
          at h
        rw [hg.pending_eq] at h
        rcases List.mem_append.mp h with h | h
        · exact .inl (.inl h)
        · exact .inr ⟨c,config,text,rfl,h⟩
      · exact .inl (.inr h)
    · exact .inl (notify_inHand h)
    · exact .inl h
    · exact .inl h
    · exact .inl h
    · exact .inl h
    · exact .inl h

theorem step_acceptances {l : AgentSystem.Label} (hs : AgentSystem.step env s l = some t) :
    ∃ more, t.acceptances = s.acceptances++more := by
  cases l with
  | cancel =>
    cases hs
    exact ⟨[],by simp⟩
  | worker l =>
    rcases workerStep_cases hs with ⟨job,ts,st,m,hw,rfl⟩ | ⟨-,rfl⟩ | ⟨-,-,rfl⟩ | ⟨w,permit,hb,rfl⟩
    · exact ⟨[],by simp⟩
    · refine ⟨[],?_⟩
      unfold popStep
      split <;> simp
    · exact ⟨[],by simp⟩
    · exact ⟨[],by simp⟩
  | socket c l =>
    rcases socketStep_cases hs with ⟨o,hp,rfl⟩ | ⟨config,text,hp,rfl⟩ | ⟨handled,hp,rfl⟩ |
      ⟨o,ok,hp,rfl⟩ | ⟨ok,hp,rfl⟩ | rfl | ⟨hp,rfl⟩ | ⟨ok,conn,hp,-,rfl⟩
    · exact ⟨[],by simp [System.setConn]⟩
    · exact ⟨_,rfl⟩
    · exact ⟨[],by simp [System.handleNotify,System.setConn,(notify_keeps handled.notify).2]⟩
    · exact ⟨[],by simp [System.setConn]⟩
    · exact ⟨[],by simp [System.setConn]⟩
    · exact ⟨[],by simp⟩
    · exact ⟨[],by simp [System.setConn]⟩
    · exact ⟨[],by simp [System.setConn]⟩

theorem Traced.keep {p : Parsers} {c : ℕ} (h : Traced p s queued c)
    (hacc : ∃ more, t.acceptances = s.acceptances++more) (hc : Kept (s.conns c) (t.conns c)) :
    Traced p t queued c := by
  obtain ⟨⟨a,ha,haccepted⟩,hopen,hgrant⟩ := h
  obtain ⟨more,hmore⟩ := hacc
  refine ⟨⟨a,?_,haccepted⟩,fun hp => hopen (hc.2.mp hp),?_⟩
  · rw [hmore]
    exact List.mem_append_left _ ha
  · rw [hc.1]
    exact hgrant

theorem handleText_traced {c : ℕ} {config : AgentConfig} {text : String}
    (h : queued ∈ newJobs s.queue (handleClientText env config (s.conns c).origin text s.queue)) :
    Traced env.parsers (s.handleText env c config text) queued c := by
  refine ⟨⟨⟨c,queued.jobId,s.log.length⟩,?_,rfl,rfl⟩,?_,?_⟩
  · exact List.mem_append_right _ (List.mem_map.mpr ⟨queued,h,rfl⟩)
  · simp [System.handleText]
  · have hgrant := newJobs_granted h
    simpa [System.handleText] using hgrant

end Agent

section Runs

variable {env : ServerEnv} {s t : Server}

structure Inv (p : Parsers) (s : Server) : Prop where
  checked : ∀ c, Checked p 0 c s
  opened : ∀ c, (s.system.conns c).phase ≠ .unopened →
    ∃ peer origin, s.visits c = .inside peer origin ∧ (s.system.conns c).origin = some origin
  traced : ∀ queued, InHand queued s.system → ∃ c, Traced p s.system queued c

/-- A new visit of one that is not inside leaves the connections as they are. -/
theorem Inv.opened_visit {p : Parsers} (h : Inv p s) {c : ℕ} (visit : Visit)
    (hout : ∀ peer origin, s.visits c ≠ .inside peer origin) (c' : ℕ)
    (hp : (s.system.conns c').phase ≠ .unopened) : ∃ peer origin,
      (s.setVisit c visit).visits c' = .inside peer origin ∧
        (s.system.conns c').origin = some origin := by
  obtain ⟨peer,origin,hin,horigin⟩ := h.opened c' hp
  have hne : c' ≠ c := by
    rintro rfl
    exact hout peer origin hin
  exact ⟨peer,origin,(Function.update_of_ne hne _ _).trans hin,horigin⟩

/-- A step of the agent that keeps the open connections keeps the traces of the jobs. -/
theorem Inv.traced_step (h : Inv env.parsers s) {l : AgentSystem.Label} {system : System}
    (hs : AgentSystem.step env s.system l = some system)
    (hkept : ∀ c, (s.system.conns c).phase ≠ .unopened → Kept (s.system.conns c) (system.conns c))
    (queued : QueuedJob) (hq : InHand queued system) :
    ∃ c, Traced env.parsers system queued c := by
  rcases inHand_step hs hq with hold | ⟨c,config,text,rfl,hnew⟩
  · obtain ⟨c,hc⟩ := h.traced queued hold
    exact ⟨c,hc.keep (step_acceptances hs) (hkept c hc.2.1)⟩
  · exact ⟨c,handleText_traced hnew⟩

theorem step_inv (s : Server) (l : Admission.Label) (t : Server) (h : Inv env.parsers s)
    (hs : Admission.step env s l = some t) : Inv env.parsers t := by
  have hchecked := fun c => Admission.step_checked c s l t (h.checked c) hs
  rcases Admission.step_cases hs with ⟨c,peer,hv,rfl⟩ | ⟨c,peer,origin,hv,rfl⟩ | ⟨c,hv,rfl⟩ |
    ⟨c,peer,origin,system,hv,ha,rfl⟩ | ⟨l,system,hl,ha,rfl⟩ | ⟨checked,rfl⟩ | rfl
  · exact ⟨hchecked,h.opened_visit _ (by simp [hv]),h.traced⟩
  · exact ⟨hchecked,h.opened_visit _ (by simp [hv]),h.traced⟩
  · exact ⟨hchecked,h.opened_visit _ hv,h.traced⟩
  · obtain ⟨horigin,hother⟩ := connect_conns ha
    refine ⟨hchecked,fun c' hopen => ?_,h.traced_step ha (fun c' hopen => ?_)⟩
    · by_cases hc : c' = c
      · rw [hc]
        exact ⟨peer,origin,Function.update_self _ _ _,horigin⟩
      · have hsame := (hother c').resolve_left hc
        obtain ⟨peer',origin',hin,ho⟩ := h.opened c' (fun hp => hopen (hsame.2.mpr hp))
        exact ⟨peer',origin',(Function.update_of_ne hc _ _).trans hin,hsame.1.trans ho⟩
    · exact connect_kept ha hopen
  · refine ⟨hchecked,fun c hopen => ?_,h.traced_step ha (fun c _ => agent_kept hl ha c)⟩
    obtain ⟨horigin,hphase⟩ := agent_kept hl ha c
    obtain ⟨peer,origin,hin,ho⟩ := h.opened c (fun hp => hopen (hphase.mpr hp))
    exact ⟨peer,origin,hin,horigin.trans ho⟩
  · exact ⟨hchecked,h.opened,h.traced⟩
  · exact h

theorem initial_inv (p : Parsers) (config : AgentConfig) : Inv p { config := config } where
  checked c := ⟨Nat.zero_le _,trivial⟩
  opened c hp := absurd rfl hp
  traced queued hq := by simp [InHand] at hq

end Runs

/-- Whatever is saved and in whatever order the parties move: every job in the hands of
the agent was accepted on the connection of a client whose address and origin were
allowed, and it may fetch from a loopback origin only if this is that client's page. -/
theorem every_job_admitted (env : ServerEnv) (config : AgentConfig) (ls : List Admission.Label)
    (t : Server) (queued : QueuedJob)
    (hr : run (Admission.step env) ls { config := config } = some t) (hq : InHand queued t.system) :
    ∃ c peer header, AcceptedOn t.system.acceptances c queued.jobId ∧
      t.visits c = .inside peer header ∧ Admitted env.parsers 0 t.inForce peer header ∧
      ∀ o, queued.htmlLocalOrigin = some o → ∃ url, env.parsers.url header = some url ∧
        isExactLoopbackUrl url = true ∧ url.origin.asciiSerialization = o := by
  have h := run_invariant (Admission.step env) (Inv env.parsers) step_inv ls _ t
    (initial_inv env.parsers config) hr
  obtain ⟨c,haccepted,hopen,hgrant⟩ := h.traced queued hq
  obtain ⟨peer,header,hin,horigin⟩ := h.opened c hopen
  have hvetted := (h.checked c).2
  rw [hin] at hvetted
  refine ⟨c,peer,header,haccepted,hin,hvetted,fun o ho => ?_⟩
  obtain ⟨header',url,hh,hu,hl,hs⟩ := hgrant o ho
  rw [horigin] at hh
  cases hh
  exact ⟨url,hu,hl,hs⟩

theorem every_job_admitted_page :
    ∃ t, run (Admission.step localEnv) pageVisit { config := pageConfig } = some t ∧
      ∃ c peer header, t.visits c = .inside peer header ∧
        Admitted localEnv.parsers 0 [pageConfig,AgentConfig.default] peer header := by
  obtain ⟨t,ht,-,hpending,hforce⟩ := pageVisit_runs
  have hq : InHand pageQueued t.system := .inl (by rw [hpending]; exact List.mem_cons_self)
  obtain ⟨c,peer,header,-,hin,hadmitted,-⟩ :=
    every_job_admitted localEnv pageConfig pageVisit t pageQueued ht hq
  rw [hforce] at hadmitted
  exact ⟨t,ht,c,peer,header,hin,hadmitted⟩

end YinShu.AdmittedJobs
