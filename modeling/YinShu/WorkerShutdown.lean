import YinShu.WorkerProgress

/-!
# Shutdown of the print worker

The token is looked at before a job is fetched and while the worker sleeps,
never while a job is in hand. So from the cancellation on, in whatever order
the parties step, the loop takes at most five more steps and fetches at most
one more job, the one it was already reaching for; a job in hand is finished;
and a stopped worker stays stopped and silent.
-/

set_option autoImplicit false

namespace YinShu.WorkerShutdown
open YinShu.PrintQueue YinShu.ClientText YinShu.AgentSystem YinShu.LabelledRun YinShu.WorkerProgress

def isPop : Label → Bool
  | .worker .pop => true
  | _ => false

def isFinish : Label → Bool
  | .worker .finish => true
  | _ => false

/-- An upper bound on the loop steps before the worker has stopped. -/
def stopDistance : WorkerPhase → ℕ
  | .stopped => 0
  | .top => 1
  | .processing _ | .woken => 2
  | .parked => 3
  | .selecting => 4
  | .popping => 5

/-- How many jobs the worker may still fetch. -/
def fetches : WorkerPhase → ℕ
  | .popping => 1
  | _ => 0

variable {env : ServerEnv} {s t : System}

theorem stopDistance_le (w : WorkerPhase) : stopDistance w ≤ 5 := by
  cases w <;> simp [stopDistance]

theorem popStep_phase (s : System) :
    (popStep s).cancelled = s.cancelled ∧ (popStep s).log = s.log ∧
      ((popStep s).worker = .selecting ∨ ∃ queued, (popStep s).worker = .processing queued) := by
  rcases popNext_spec s.queue with ⟨-,hpop⟩ | ⟨queued,rest,-,hpop⟩
  · simp [popStep,hpop]
  · simp [popStep,hpop]

/-- A loop step after the cancellation: it comes closer to the end and fetches no job
that the worker was not reaching for; only `finish` lets go of the job in hand. -/
theorem workerStep_closing {l : WorkerStep} (h : workerStep s l = some t)
    (hc : s.cancelled = true) : t.cancelled = true ∧
      stopDistance t.worker+(WorkerStep.isControl l).toNat ≤ stopDistance s.worker ∧
      fetches t.worker+(isPop (.worker l)).toNat ≤ fetches s.worker ∧
      (∀ queued, s.worker = .processing queued → t.worker = .processing queued ∨ l = .finish) := by
  cases l with
  | broadcast timestamp status message =>
    simp only [workerStep] at h
    split at h
    · cases h
      exact ⟨hc,by simp [WorkerStep.isControl],by simp [isPop],fun queued hq => Or.inl hq⟩
    · cases h
  | pop =>
    simp only [workerStep, Option.ite_none_right_eq_some, Option.some.injEq] at h
    obtain ⟨hw,rfl⟩ := h
    obtain ⟨hc',-,hp | ⟨queued,hp⟩⟩ := popStep_phase s <;>
      exact ⟨hc'.trans hc,by simp [hp,hw,stopDistance,WorkerStep.isControl],
        by simp [hp,hw,fetches,isPop],fun queued hq => by simp [hw] at hq⟩
  | finish =>
    simp only [workerStep] at h
    split at h
    · rename_i queued hw
      cases h
      exact ⟨hc,by simp [hw,stopDistance,WorkerStep.isControl],by simp [hw,fetches,isPop],
        fun _ _ => Or.inr rfl⟩
    · cases h
  | shutdownWake =>
    simp only [workerStep, hc, if_true] at h
    split at h <;> cases h
    all_goals
      rename_i hw
      exact ⟨by simp,by simp [hw,stopDistance,WorkerStep.isControl],by simp [hw,fetches,isPop],
        fun queued hq => by simp [hw] at hq⟩
  | check =>
    simp only [workerStep, Option.ite_none_right_eq_some, Option.some.injEq, hc, if_true] at h
    obtain ⟨hw,rfl⟩ := h
    exact ⟨rfl,by simp [hw,stopDistance,WorkerStep.isControl],by simp [hw,fetches,isPop],
      fun queued hq => by simp [hw] at hq⟩
  | resume =>
    simp only [workerStep, Option.ite_none_right_eq_some, Option.some.injEq] at h
    obtain ⟨hw,rfl⟩ := h
    exact ⟨hc,by simp [hw,stopDistance,WorkerStep.isControl],by simp [hw,fetches,isPop],
      fun queued hq => by simp [hw] at hq⟩
  | _ =>
    simp only [workerStep, Option.ite_none_right_eq_some, Option.some.injEq] at h
    obtain ⟨⟨hw,-⟩,rfl⟩ := h
    exact ⟨hc,by simp [hw,stopDistance,WorkerStep.isControl],by simp [hw,fetches,isPop],
      fun queued hq => by simp [hw] at hq⟩

/-- One step of any party after the cancellation. -/
theorem step_closing {l : Label} (h : step env s l = some t) (hc : s.cancelled = true) :
    t.cancelled = true ∧
      stopDistance t.worker+(Label.isControl l).toNat ≤ stopDistance s.worker ∧
      fetches t.worker+(isPop l).toNat ≤ fetches s.worker ∧
      (∀ queued, s.worker = .processing queued →
        t.worker = .processing queued ∨ isFinish l = true) := by
  cases l with
  | cancel =>
    cases h
    exact ⟨rfl,by simp [Label.isControl],by simp [isPop],fun queued hq => Or.inl hq⟩
  | worker l =>
    obtain ⟨hc',hd,hf,hq⟩ := workerStep_closing h hc
    exact ⟨hc',hd,hf,fun queued hw => (hq queued hw).imp_right (fun hl => by rw [hl]; rfl)⟩
  | socket c l =>
    obtain ⟨-,hc',hw | ⟨hw,hw'⟩⟩ := socketStep_frame h
    · exact ⟨hc'.trans hc,by simp [hw,Label.isControl],by simp [hw,isPop],
        fun queued hq => Or.inl (hw ▸ hq)⟩
    · exact ⟨hc'.trans hc,by simp [hw,hw',stopDistance,Label.isControl],
        by simp [hw,hw',fetches,isPop],fun queued hq => by simp [hw] at hq⟩

theorem run_cancelled {ls : List Label} (hc : s.cancelled = true)
    (hr : run (step env) ls s = some t) : t.cancelled = true :=
  run_invariant (step env) (fun s => s.cancelled = true)
    (fun _ _ _ h hs => (step_closing hs h).1) ls s t hc hr

theorem run_stopDistance {ls : List Label} (hc : s.cancelled = true)
    (hr : run (step env) ls s = some t) :
    stopDistance t.worker+ls.countP Label.isControl ≤ stopDistance s.worker :=
  (run_count_le (step env) (fun _ => True) (fun s => s.cancelled = true) (fun _ => True)
    Label.isControl (fun s => stopDistance s.worker)
    (fun _ _ _ h _ hs => ⟨(step_closing hs h).1,fun _ => ⟨trivial,(step_closing hs h).2.1⟩⟩)
    ls s t hc (by simp) hr trivial).2

theorem run_fetches {ls : List Label} (hc : s.cancelled = true)
    (hr : run (step env) ls s = some t) : ls.countP isPop ≤ fetches s.worker := by
  have h := (run_count_le (step env) (fun _ => True) (fun s => s.cancelled = true)
    (fun _ => True) isPop (fun s => fetches s.worker)
    (fun _ _ _ h _ hs => ⟨(step_closing hs h).1,fun _ => ⟨trivial,(step_closing hs h).2.2.1⟩⟩)
    ls s t hc (by simp) hr trivial).2
  omega

/-- A job stays in hand until the worker has finished it. -/
theorem run_finishes {ls : List Label} {queued : QueuedJob} (hc : s.cancelled = true)
    (hw : s.worker = .processing queued) (hr : run (step env) ls s = some t)
    (ht : t.worker ≠ .processing queued) : ∃ l ∈ ls, isFinish l = true := by
  obtain ⟨before,l,after,u,v,rfl,hb,hl,-,hu,hv⟩ := run_switch (step env)
    (fun s => s.worker = .processing queued) ls s t hr hw ht
  have hq := (step_closing hl (run_cancelled hc hb)).2.2.2 queued hu
  exact ⟨l,by simp,hq.resolve_left hv⟩

theorem enabled_of_cancelled (env : ServerEnv) (hc : s.cancelled = true)
    (hw : s.worker ≠ .stopped) :
    ∃ l t, Label.isControl l = true ∧ step env s l = some t := by
  cases h : s.worker with
  | top => exact ⟨.worker .check,_,rfl,by simp [step,workerStep,h]; rfl⟩
  | popping => exact ⟨.worker .pop,_,rfl,by simp [step,workerStep,h]; rfl⟩
  | processing queued => exact ⟨.worker .finish,_,rfl,by simp [step,workerStep,h]; rfl⟩
  | selecting => exact ⟨.worker .pollShutdown,_,rfl,by simp [step,workerStep,h,hc]; rfl⟩
  | parked => exact ⟨.worker .shutdownWake,_,rfl,by simp [step,workerStep,h,hc]; rfl⟩
  | woken => exact ⟨.worker .resume,_,rfl,by simp [step,workerStep,h]; rfl⟩
  | stopped => exact absurd h hw

theorem step_stopped {l : Label} (h : step env s l = some t) (hw : s.worker = .stopped) :
    t.worker = .stopped ∧ t.log = s.log := by
  cases l with
  | cancel =>
    cases h
    exact ⟨hw,rfl⟩
  | worker l => cases l <;> simp [step,workerStep,hw] at h
  | socket c l =>
    obtain ⟨-,-,hw'⟩ := socketStep_frame h
    refine ⟨by simpa [hw] using hw',?_⟩
    rcases socketStep_cases h with ⟨o,hp,rfl⟩ | ⟨config,text,hp,rfl⟩ | ⟨handled,hp,rfl⟩ |
      ⟨o,ok,hp,rfl⟩ | ⟨ok,hp,rfl⟩ | rfl | ⟨hp,rfl⟩ | ⟨ok,conn,hp,-,rfl⟩ <;> try rfl
    cases hn : handled.notify <;>
      simp [System.handleNotify,hn,System.setConn,System.notifyOne,hw]

theorem run_stopped {ls : List Label} (hw : s.worker = .stopped)
    (hr : run (step env) ls s = some t) : t.worker = .stopped ∧ t.log = s.log :=
  run_invariant (step env) (fun u => u.worker = .stopped ∧ u.log = s.log)
    (fun _ _ _ h hs => ⟨(step_stopped hs h.1).1,(step_stopped hs h.1).2.trans h.2⟩) ls s t
    ⟨hw,rfl⟩ hr

/-- After the cancellation the loop ends within five steps of its own and is never
stuck before; it fetches a job only if it was already past the check; the job in hand
is finished; and once stopped, the worker reports nothing more. -/
theorem shutdown_drains (env : ServerEnv) (more : List Label) (s t : System)
    (hc : s.cancelled = true) (hr : run (step env) more s = some t) :
    more.countP Label.isControl ≤ 5 ∧
    more.countP isPop ≤ (if s.worker = .popping then 1 else 0) ∧
    (t.worker ≠ .stopped → ∃ l u, Label.isControl l = true ∧ step env t l = some u) ∧
    (∀ queued, s.worker = .processing queued → t.worker ≠ .processing queued →
      ∃ l ∈ more, isFinish l = true) ∧
    (∀ rest u, t.worker = .stopped → run (step env) rest t = some u →
      u.worker = .stopped ∧ u.log = t.log) := by
  refine ⟨?_,?_,enabled_of_cancelled env (run_cancelled hc hr),
    fun queued hw ht => run_finishes hc hw hr ht,fun rest u hw hu => run_stopped hw hu⟩
  · have h := run_stopDistance hc hr
    have := stopDistance_le s.worker
    omega
  · refine (run_fetches hc hr).trans ?_
    cases s.worker <;> simp [fetches]

/-- The token is cancelled while the worker reaches for the job of the one connection. -/
def lateSchedule : List Label :=
  [.socket 0 (.connect none),.socket 0 (.text Settings.AgentConfig.default rawFrame),
    .worker .check,.cancel]

theorem lateSchedule_runs : (run (step rawEnv) lateSchedule {}).isSome = true := by
  decide

def closingSchedule : List Label := [.worker .pop,.worker .finish,.worker .check]

theorem closingSchedule_runs : (run (step rawEnv) closingSchedule
    ((run (step rawEnv) lateSchedule {}).get lateSchedule_runs)).isSome = true := by
  decide

theorem shutdown_drains_late :
    ((run (step rawEnv) closingSchedule ((run (step rawEnv) lateSchedule {}).get
        lateSchedule_runs)).get closingSchedule_runs).worker = .stopped ∧
      closingSchedule.countP isPop = 1 ∧ closingSchedule.countP Label.isControl ≤ 5 :=
  ⟨by decide,by decide,(shutdown_drains rawEnv closingSchedule
    ((run (step rawEnv) lateSchedule {}).get lateSchedule_runs) _ (by decide)
    (Option.some_get closingSchedule_runs).symm).1⟩

end YinShu.WorkerShutdown
