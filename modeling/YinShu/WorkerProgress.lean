import YinShu.WorkerWakeup
import YinShu.StatusRouting

/-!
# Progress of the print worker

Every step of the worker loop other than a status event of the job in hand
brings the next pop closer, and every pop takes the oldest job. So the place
of a job in the queue bounds the number of loop steps until the worker starts
it, whatever the connections do meanwhile; and as long as the job waits, the
loop can take a step or a handler is about to wake it.
-/

set_option autoImplicit false

namespace YinShu.WorkerProgress
open YinShu.PrintQueue YinShu.ClientText YinShu.AgentSystem YinShu.LabelledRun YinShu.WorkerWakeup

/-- The steps of the loop itself; a status event belongs to the job in hand. -/
def WorkerStep.isControl : WorkerStep → Bool
  | .broadcast _ _ _ => false
  | _ => true

def Label.isControl : Label → Bool
  | .worker l => WorkerStep.isControl l
  | _ => false

def Label.isCancel : Label → Bool
  | .cancel => true
  | _ => false

/-- An upper bound on the loop steps up to and including the next pop. -/
def popDistance : WorkerPhase → ℕ
  | .popping => 1
  | .top => 2
  | .processing _ => 3
  | .parked | .woken => 3
  | .selecting => 4
  | .stopped => 0

variable {env : ServerEnv} {s t : System}

/-- What a loop step does while nobody has asked the agent to stop. -/
theorem workerStep_advance {l : WorkerStep} (h : workerStep s l = some t)
    (hc : s.cancelled = false) :
    (WorkerStep.isControl l = false ∧ t.queue = s.queue ∧ t.worker = s.worker ∧
      t.cancelled = s.cancelled) ∨
    (l = .pop ∧ s.worker = .popping ∧ t = popStep s) ∨
    (l ≠ .pop ∧ t.queue = s.queue ∧ t.cancelled = s.cancelled ∧ t.worker ≠ .stopped ∧
      popDistance t.worker+1 ≤ popDistance s.worker) := by
  cases l with
  | broadcast timestamp status message =>
    simp only [workerStep] at h
    split at h
    · cases h
      exact Or.inl ⟨rfl,rfl,rfl,rfl⟩
    · cases h
  | pop =>
    simp only [workerStep, Option.ite_none_right_eq_some, Option.some.injEq] at h
    exact Or.inr (Or.inl ⟨rfl,h.1,h.2.symm⟩)
  | finish =>
    simp only [workerStep] at h
    split at h
    · rename_i queued hw
      cases h
      exact Or.inr (Or.inr ⟨by simp,rfl,rfl,by simp,by simp [popDistance,hw]⟩)
    · cases h
  | shutdownWake =>
    simp [workerStep,hc] at h
  | pollShutdown =>
    simp [workerStep,hc] at h
  | check =>
    simp only [workerStep, Option.ite_none_right_eq_some, Option.some.injEq, hc] at h
    obtain ⟨hw,rfl⟩ := h
    exact Or.inr (Or.inr ⟨by simp,rfl,hc.symm,by simp,by simp [popDistance,hw]⟩)
  | pollNotified =>
    simp only [workerStep, Option.ite_none_right_eq_some, Option.some.injEq] at h
    obtain ⟨⟨hw,-⟩,rfl⟩ := h
    exact Or.inr (Or.inr ⟨by simp,rfl,rfl,by simp,by simp [popDistance,hw]⟩)
  | park =>
    simp only [workerStep, Option.ite_none_right_eq_some, Option.some.injEq] at h
    obtain ⟨⟨hw,-⟩,rfl⟩ := h
    exact Or.inr (Or.inr ⟨by simp,rfl,rfl,by simp,by simp [popDistance,hw]⟩)
  | resume =>
    simp only [workerStep, Option.ite_none_right_eq_some, Option.some.injEq] at h
    obtain ⟨hw,rfl⟩ := h
    exact Or.inr (Or.inr ⟨by simp,rfl,rfl,by simp,by simp [popDistance,hw]⟩)

/-- The queue grew at its end by jobs that it had never seen. -/
def Extended (q r : QueueState) : Prop :=
  ∃ new : List QueuedJob, r.pending = q.pending++new ∧
    r.seenJobIds = q.seenJobIds ∪ (new.map QueuedJob.jobId).toFinset ∧
    (new.map QueuedJob.jobId).Nodup ∧ ∀ queued ∈ new, queued.jobId ∉ q.seenJobIds

theorem Extended.refl (q : QueueState) : Extended q q := ⟨[],by simp⟩

/-- A handler extends the queue and may wake the worker; it moves the loop in no other way. -/
theorem socketStep_frame {c : ℕ} {l : SocketStep} (h : socketStep env s c l = some t) :
    Extended s.queue t.queue ∧ t.cancelled = s.cancelled ∧
      (t.worker = s.worker ∨ s.worker = .parked ∧ t.worker = .woken) := by
  rcases socketStep_cases h with ⟨o,hp,rfl⟩ | ⟨config,text,hp,rfl⟩ | ⟨handled,hp,rfl⟩ |
    ⟨o,ok,hp,rfl⟩ | ⟨ok,hp,rfl⟩ | rfl | ⟨hp,rfl⟩ | ⟨ok,conn,hp,-,rfl⟩
  · exact ⟨.refl _,rfl,Or.inl rfl⟩
  · have hg := handleClientText_growth env config (s.conns c).origin text s.queue
    exact ⟨⟨_,hg.pending_eq,hg.seen_eq,hg.ids_nodup,hg.ids_fresh⟩,rfl,Or.inl rfl⟩
  · cases hn : handled.notify with
    | false => simp [System.handleNotify,hn,System.setConn,Extended.refl]
    | true =>
      cases hw : s.worker <;>
        simp [System.handleNotify,hn,System.setConn,System.notifyOne,hw,Extended.refl]
  · exact ⟨.refl _,rfl,Or.inl rfl⟩
  · exact ⟨.refl _,rfl,Or.inl rfl⟩
  · exact ⟨.refl _,rfl,Or.inl rfl⟩
  · exact ⟨.refl _,rfl,Or.inl rfl⟩
  · exact ⟨.refl _,rfl,Or.inl rfl⟩

/-- Nobody has asked the agent to stop, and the queue holds what it accepted once each. -/
structure Running (s : System) : Prop where
  uncancelled : s.cancelled = false
  alive : s.worker ≠ .stopped
  seen : ∀ job ∈ s.queue.pending, job.jobId ∈ s.queue.seenJobIds
  nodup : (s.queue.pending.map QueuedJob.jobId).Nodup

def Known (queued : QueuedJob) (s : System) : Prop := queued.jobId ∈ s.queue.seenJobIds

variable {queued : QueuedJob}

theorem Running.extended (h : Running s) (he : Extended s.queue t.queue)
    (hc : t.cancelled = s.cancelled) (ha : t.worker ≠ .stopped) : Running t := by
  obtain ⟨new,hp,hs,hn,hf⟩ := he
  refine ⟨hc.trans h.uncancelled,ha,?_,?_⟩
  · intro job hj
    rw [hp] at hj
    rw [hs]
    rcases List.mem_append.mp hj with hj | hj
    · exact Finset.mem_union_left _ (h.seen job hj)
    · exact Finset.mem_union_right _ (by simpa using ⟨job,hj,rfl⟩)
  · rw [hp,List.map_append,List.nodup_append']
    refine ⟨h.nodup,hn,?_⟩
    intro jobId hold hnew
    obtain ⟨job,hj,hid⟩ := List.mem_map.mp hold
    obtain ⟨job',hj',hid'⟩ := List.mem_map.mp hnew
    exact hf job' hj' (hid'.trans hid.symm ▸ h.seen job hj)

theorem Known.extended (h : Known queued s) (he : Extended s.queue t.queue) : Known queued t := by
  obtain ⟨new,-,hs,-,-⟩ := he
  rw [Known,hs]
  exact Finset.mem_union_left _ h

/-- A known job that waits after the queue has grown was already waiting, at the same place. -/
theorem Known.place (h : Known queued s) (he : Extended s.queue t.queue)
    (hq : queued ∈ t.queue.pending) : queued ∈ s.queue.pending ∧
      t.queue.pending.idxOf queued = s.queue.pending.idxOf queued := by
  obtain ⟨new,hp,-,-,hf⟩ := he
  rw [hp] at hq ⊢
  have hm : queued ∈ s.queue.pending :=
    (List.mem_append.mp hq).resolve_right (fun hn => hf queued hn h)
  exact ⟨hm,List.idxOf_append_of_mem hm⟩

/-- An upper bound on the loop steps up to and including the pop of the job. -/
def distance (queued : QueuedJob) (s : System) : ℕ :=
  3*s.queue.pending.idxOf queued+popDistance s.worker

theorem Running.pop (h : Running s) :
    Running (popStep s) ∧ (popStep s).queue.seenJobIds = s.queue.seenJobIds := by
  rcases popNext_spec s.queue with ⟨-,hpop⟩ | ⟨head,rest,hq,hpop⟩
  · simp only [popStep,hpop]
    exact ⟨⟨h.uncancelled,by simp,h.seen,h.nodup⟩,trivial⟩
  · have hn := h.nodup
    have hs := h.seen
    simp only [hq,List.map_cons,List.nodup_cons] at hn hs
    simp only [popStep,hpop]
    exact ⟨⟨h.uncancelled,by simp,fun job hj => hs job (by simp [hj]),hn.2⟩,trivial⟩

/-- A pop hands out the oldest job and brings every other one a place forward. -/
theorem Running.popped (h : Running s) (hw : s.worker = .popping)
    (hm : queued ∈ (popStep s).queue.pending) :
    queued ∈ s.queue.pending ∧ distance queued (popStep s)+1 ≤ distance queued s := by
  rcases popNext_spec s.queue with ⟨he,hpop⟩ | ⟨head,rest,hq,hpop⟩
  · simp [popStep,hpop,he] at hm
  · have hn := h.nodup
    simp only [hq,List.map_cons,List.nodup_cons] at hn
    simp only [popStep,hpop] at hm ⊢
    have hne : head ≠ queued := by
      rintro rfl
      exact hn.1 (List.mem_map_of_mem hm)
    refine ⟨by simp [hq,hm],?_⟩
    simp only [distance,hq,hw,popDistance,List.idxOf_cons_ne _ hne]
    omega

theorem Running.worker (h : Running s) {l : WorkerStep} (hs : workerStep s l = some t) :
    Running t ∧ t.queue.seenJobIds = s.queue.seenJobIds := by
  rcases workerStep_advance hs h.uncancelled with ⟨-,hq,hw,hc⟩ | ⟨-,-,rfl⟩ | ⟨-,hq,hc,ha,-⟩
  · exact ⟨h.extended (hq ▸ .refl _) hc (hw ▸ h.alive),by rw [hq]⟩
  · exact h.pop
  · exact ⟨h.extended (hq ▸ .refl _) hc ha,by rw [hq]⟩

theorem Running.approach (h : Running s) {l : WorkerStep} (hs : workerStep s l = some t)
    (hm : queued ∈ t.queue.pending) : queued ∈ s.queue.pending ∧
      distance queued t+(WorkerStep.isControl l).toNat ≤ distance queued s := by
  rcases workerStep_advance hs h.uncancelled with ⟨hl,hq,hw,-⟩ | ⟨rfl,hw,rfl⟩ | ⟨-,hq,-,-,hd⟩
  · exact ⟨hq ▸ hm,by simp [distance,hq,hw,hl]⟩
  · exact h.popped hw hm
  · refine ⟨hq ▸ hm,?_⟩
    have hb := Bool.toNat_le (WorkerStep.isControl l)
    simp only [distance,hq]
    omega

theorem Running.socket (h : Running s) {c : ℕ} {l : SocketStep}
    (hs : socketStep env s c l = some t) : Running t := by
  obtain ⟨he,hc,hw⟩ := socketStep_frame hs
  refine h.extended he hc ?_
  rcases hw with hw | ⟨-,hw⟩
  · exact hw ▸ h.alive
  · simp [hw]

theorem Known.socket (h : Known queued s) {c : ℕ} {l : SocketStep}
    (hs : socketStep env s c l = some t) : Known queued t ∧ (queued ∈ t.queue.pending →
      queued ∈ s.queue.pending ∧ distance queued t ≤ distance queued s) := by
  obtain ⟨he,-,hw⟩ := socketStep_frame hs
  refine ⟨h.extended he,fun hm => ?_⟩
  obtain ⟨hm,hi⟩ := h.place he hm
  refine ⟨hm,?_⟩
  rcases hw with hw | ⟨hw,hw'⟩
  · simp [distance,hi,hw]
  · simp [distance,hi,hw,hw',popDistance]

theorem Running.step (h : Running s) {l : Label} (hl : Label.isCancel l = false)
    (hs : step env s l = some t) : Running t := by
  cases l with
  | cancel => simp [Label.isCancel] at hl
  | worker l => exact (h.worker hs).1
  | socket c l => exact h.socket hs

/-- One step brings a waiting job closer to its pop if it is a step of the loop, and
never takes it further away. -/
theorem Running.advance (h : Running s) (hk : Known queued s) {l : Label}
    (hl : Label.isCancel l = false) (hs : AgentSystem.step env s l = some t) :
    (Running t ∧ Known queued t) ∧ (queued ∈ t.queue.pending → queued ∈ s.queue.pending ∧
      distance queued t+(Label.isControl l).toNat ≤ distance queued s) := by
  cases l with
  | cancel => simp [Label.isCancel] at hl
  | worker l =>
    obtain ⟨hr,hseen⟩ := h.worker hs
    exact ⟨⟨hr,by rw [Known,hseen]; exact hk⟩,h.approach hs⟩
  | socket c l =>
    obtain ⟨hk',hw⟩ := hk.socket hs
    exact ⟨⟨h.socket hs,hk'⟩,hw⟩

theorem initial_running : Running {} := by
  constructor <;> simp

theorem run_running {ls : List Label} (hc : ∀ l ∈ ls, Label.isCancel l = false)
    (hs : Running s) (hr : run (AgentSystem.step env) ls s = some t) : Running t :=
  run_invariant_of_mem (AgentSystem.step env) (fun l => Label.isCancel l = false) Running
    (fun _ _ _ h hl hs => h.step hl hs) ls s t hs hc hr

/-- The only step that takes a job out of the queue hands it to `process_job`. -/
theorem Running.handed (h : Running s) {l : Label}
    (hl : Label.isCancel l = false) (hs : AgentSystem.step env s l = some t)
    (hm : queued ∈ s.queue.pending) (hm' : queued ∉ t.queue.pending) :
    l = .worker .pop ∧ t.worker = .processing queued := by
  cases l with
  | cancel => simp [Label.isCancel] at hl
  | socket c l =>
    obtain ⟨⟨new,hp,-⟩,-⟩ := socketStep_frame hs
    exact absurd (hp ▸ List.mem_append_left new hm) hm'
  | worker l =>
    rcases workerStep_advance hs h.uncancelled with ⟨-,hq,-⟩ | ⟨rfl,hw,rfl⟩ | ⟨-,hq,-⟩
    · exact absurd (hq ▸ hm) hm'
    · refine ⟨rfl,?_⟩
      rcases popNext_spec s.queue with ⟨he,-⟩ | ⟨head,rest,hq,hpop⟩
      · simp [he] at hm
      · simp only [popStep,hpop] at hm' ⊢
        rw [hq] at hm
        rw [(List.mem_cons.mp hm).resolve_right hm']
    · exact absurd (hq ▸ hm) hm'

/-- While a job waits, the loop can take a step, or it sleeps and a handler is about
to wake it. -/
theorem Running.enabled (h : Running s) (hi : WorkerWakeup.Inv s) (hp : s.queue.pending ≠ []) :
    (∃ l t, Label.isControl l = true ∧ AgentSystem.step env s l = some t) ∨
      (s.worker = .parked ∧
        ∃ c t, AgentSystem.step env s (.socket c .notify) = some t ∧ t.worker = .woken) := by
  have halive := h.alive
  cases hw : s.worker with
  | top => exact Or.inl ⟨.worker .check,_,rfl,by simp [AgentSystem.step,workerStep,hw]; rfl⟩
  | popping => exact Or.inl ⟨.worker .pop,_,rfl,by simp [AgentSystem.step,workerStep,hw]; rfl⟩
  | processing job =>
    exact Or.inl ⟨.worker .finish,_,rfl,by simp [AgentSystem.step,workerStep,hw]; rfl⟩
  | woken => exact Or.inl ⟨.worker .resume,_,rfl,by simp [AgentSystem.step,workerStep,hw]; rfl⟩
  | stopped => exact absurd hw halive
  | selecting =>
    cases hq : s.permit with
    | true =>
      exact Or.inl ⟨.worker .pollNotified,_,rfl,
        by simp [AgentSystem.step,workerStep,hw,hq]; rfl⟩
    | false => exact Or.inl ⟨.worker .park,_,rfl,by simp [AgentSystem.step,workerStep,hw,hq]; rfl⟩
  | parked =>
    obtain ⟨c,handled,hph,hn⟩ :=
      (hi.covered (Or.inr hw) hp).resolve_left (by simp [hi.parked hw])
    refine Or.inr ⟨rfl,c,s.handleNotify c handled,by simp [AgentSystem.step,socketStep,hph],?_⟩
    simp [System.handleNotify,hn,System.setConn,System.notifyOne,hw]

/-- A job that waits behind `i` others is handed to `process_job` before the loop has
taken `3*i+4` more steps, whatever the connections do meanwhile; and while it waits,
the loop can take a step or is about to be woken. -/
theorem no_starvation (env : ServerEnv) (ls more : List Label) (s t : System) (i : ℕ)
    (queued : QueuedJob) (hc : ∀ l ∈ ls++more, Label.isCancel l = false)
    (hr : run (step env) ls {} = some s) (hq : s.queue.pending[i]? = some queued)
    (hm : run (step env) more s = some t) :
    (queued ∈ t.queue.pending →
      (∃ l u, Label.isControl l = true ∧ step env t l = some u) ∨
      (t.worker = .parked ∧
        ∃ c u, step env t (.socket c .notify) = some u ∧ u.worker = .woken)) ∧
    (3*i+4 ≤ more.countP Label.isControl →
      ∃ before after u v, more = before++ .worker .pop::after ∧
        run (step env) before s = some u ∧ step env u (.worker .pop) = some v ∧
        v.worker = .processing queued ∧ run (step env) after v = some t) := by
  have hcs : ∀ l ∈ ls, Label.isCancel l = false := fun l hl => hc l (by simp [hl])
  have hcm : ∀ l ∈ more, Label.isCancel l = false := fun l hl => hc l (by simp [hl])
  have hs : Running s := run_running hcs initial_running hr
  have hwait : queued ∈ s.queue.pending := List.mem_of_getElem? hq
  have hknown : Known queued s := hs.seen queued hwait
  constructor
  · intro hp
    have hall : run (step env) (ls++more) {} = some t := by rw [run_append,hr]; exact hm
    exact (run_running hcm hs hm).enabled
      (run_invariant (step env) WorkerWakeup.Inv WorkerWakeup.step_inv _ {} t
        WorkerWakeup.initial_inv hall) (List.ne_nil_of_mem hp)
  · intro hcount
    have hgone : queued ∉ t.queue.pending := by
      intro hp
      have hle := (run_count_le (step env) (fun l => Label.isCancel l = false)
        (fun s => Running s ∧ Known queued s) (fun s => queued ∈ s.queue.pending)
        Label.isControl (distance queued) (fun s l t h hl hs => h.1.advance h.2 hl hs)
        more s t ⟨hs,hknown⟩ hcm hm hp).2
      have hidx : s.queue.pending.idxOf queued = i := by
        obtain ⟨hlt,he⟩ := List.getElem?_eq_some_iff.mp hq
        rw [← he]
        exact (List.Nodup.of_map _ hs.nodup).idxOf_getElem i hlt
      have hbound : popDistance s.worker ≤ 4 := by cases s.worker <;> simp [popDistance]
      have hpos : 1 ≤ popDistance t.worker := by
        have := (run_running hcm hs hm).alive
        cases hw : t.worker <;> simp_all [popDistance]
      simp only [distance] at hle
      omega
    obtain ⟨before,l,after,u,v,rfl,hb,hl,ha,hu,hv⟩ := run_switch (step env)
      (fun s => queued ∈ s.queue.pending) more s t hm hwait hgone
    have hcb : ∀ l ∈ before, Label.isCancel l = false := fun l hl => hcm l (by simp [hl])
    have hku : Running u ∧ Known queued u :=
      run_invariant_of_mem (step env) (fun l => Label.isCancel l = false)
        (fun s => Running s ∧ Known queued s)
        (fun s l t h hl hs => (h.1.advance h.2 hl hs).1) before s u ⟨hs,hknown⟩ hcb hb
    obtain ⟨rfl,hw⟩ := hku.1.handed (hcm l (by simp)) hl hu hv
    exact ⟨before,after,u,v,rfl,hb,hl,hw,ha⟩

def rawQueued : QueuedJob := ⟨"REQ-RAW",none,rawJob,none⟩

theorem parked_waits : ((run (step rawEnv) parkedSchedule {}).get
    parkedSchedule_runs).queue.pending = [rawQueued] := by
  decide

/-- The handler wakes the parked worker, which fetches the job and finishes it. -/
def wakingSchedule : List Label :=
  [.socket 0 .notify,.worker .resume,.worker .check,.worker .pop,.worker .finish]

theorem wakingSchedule_runs : (run (step rawEnv) wakingSchedule
    ((run (step rawEnv) parkedSchedule {}).get parkedSchedule_runs)).isSome = true := by
  decide

theorem no_starvation_parked : ∃ before after u v,
    wakingSchedule = before++ .worker .pop::after ∧
      run (step rawEnv) before
        ((run (step rawEnv) parkedSchedule {}).get parkedSchedule_runs) = some u ∧
      step rawEnv u (.worker .pop) = some v ∧ v.worker = .processing rawQueued ∧
      run (step rawEnv) after v = some ((run (step rawEnv) wakingSchedule
        ((run (step rawEnv) parkedSchedule {}).get parkedSchedule_runs)).get
          wakingSchedule_runs) :=
  (no_starvation rawEnv parkedSchedule wakingSchedule _ _ 0 rawQueued (by decide)
    (Option.some_get _).symm (by rw [parked_waits]; rfl) (Option.some_get _).symm).2 (by decide)

end YinShu.WorkerProgress
