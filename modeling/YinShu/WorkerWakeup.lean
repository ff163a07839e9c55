import YinShu.AgentSystem

/-!
# No lost wake-up

A handler enqueues under the queue lock and calls `notify_one` later; the
worker finds the queue empty and parks later. The invariant covers both gaps:
from an unsuccessful pop until the next wake-up, a non-empty queue comes with
a stored permit or with a handler that has yet to notify.
-/

set_option autoImplicit false

namespace YinShu.WorkerWakeup
open YinShu.PrintQueue YinShu.ClientText YinShu.AgentSystem YinShu.LabelledRun

/-- Some handler has enqueued and has not called `notify_one` yet. -/
def NotifyDue (s : System) : Prop :=
  ∃ c handled, (s.conns c).phase = .accepted handled ∧ handled.notify = true

def Idle (s : System) : Prop := s.worker = .selecting ∨ s.worker = .parked

structure Inv (s : System) : Prop where
  covered : Idle s → s.queue.pending ≠ [] → s.permit = true ∨ NotifyDue s
  parked : s.worker = .parked → s.permit = false

variable {env : ServerEnv} {s t : System}

/-- A step that leaves queue, permit and worker alone, and does not move a
connection that has yet to notify. -/
theorem Inv.setConn (h : Inv s) (c : ℕ) (conn : Connection)
    (hc : ∀ handled, (s.conns c).phase ≠ .accepted handled) : Inv (s.setConn c conn) where
  covered := by
    intro hi hp
    refine (h.covered hi hp).imp_right ?_
    rintro ⟨c',handled,hph,hn⟩
    refine ⟨c',handled,?_,hn⟩
    have hne : c' ≠ c := by
      rintro rfl
      exact hc handled hph
    simpa [System.setConn,hne] using hph
  parked := h.parked

theorem Inv.handleText (h : Inv s) (c : ℕ) (config : Settings.AgentConfig) (text : String)
    (hc : (s.conns c).phase = .select) : Inv (s.handleText env c config text) where
  covered := by
    intro hi hp
    have hg := handleClientText_growth env config (s.conns c).origin text s.queue
    by_cases he : (handleClientText env config (s.conns c).origin text s.queue).queue.pending =
        s.queue.pending
    · rw [System.handleText,he] at hp
      refine (h.covered hi hp).imp_right ?_
      rintro ⟨c',handled,hph,hn⟩
      refine ⟨c',handled,?_,hn⟩
      have hne : c' ≠ c := by
        rintro rfl
        rw [hc] at hph
        cases hph
      simpa [System.handleText,hne] using hph
    · exact Or.inr ⟨c,_,by simp [System.handleText],hg.notified he⟩
  parked := h.parked

theorem Inv.handleNotify (h : Inv s) (c : ℕ) (handled : Handled)
    (hc : (s.conns c).phase = .accepted handled) : Inv (s.handleNotify c handled) := by
  cases hn : handled.notify with
  | false =>
    refine ⟨?_,by simpa [System.handleNotify,hn,System.setConn] using h.parked⟩
    intro hi hp
    simp only [System.handleNotify,hn] at hi hp ⊢
    refine (h.covered hi hp).imp_right ?_
    rintro ⟨c',handled',hph,hn'⟩
    refine ⟨c',handled',?_,hn'⟩
    have hne : c' ≠ c := by
      rintro rfl
      rw [hc] at hph
      cases hph
      rw [hn] at hn'
      cases hn'
    simpa [System.setConn,hne] using hph
  | true =>
    cases hw : s.worker <;>
      constructor <;> simp [System.handleNotify,hn,System.setConn,System.notifyOne,hw,Idle]

theorem socketStep_inv (c : ℕ) (l : SocketStep) (h : Inv s)
    (hs : socketStep env s c l = some t) : Inv t := by
  rcases socketStep_cases hs with ⟨o,hp,rfl⟩ | ⟨config,text,hp,rfl⟩ | ⟨handled,hp,rfl⟩ |
    ⟨o,ok,hp,rfl⟩ | ⟨ok,hp,rfl⟩ | rfl | ⟨hp,rfl⟩ | ⟨ok,conn,hp,-,rfl⟩
  · exact h.setConn c _ (by simp [hp])
  · exact h.handleText c config text hp
  · exact h.handleNotify c handled hp
  · exact h.setConn c _ (by simp [hp])
  · exact h.setConn c _ (by simp [hp])
  · exact h
  · exact h.setConn c _ (by simp [hp])
  · exact h.setConn c _ (by simp [hp])

theorem popStep_inv (s : System) : Inv (popStep s) := by
  rcases popNext_spec s.queue with ⟨he,hpop⟩ | ⟨queued,rest,-,hpop⟩
  · constructor <;> simp [popStep,hpop,he]
  · constructor <;> simp [popStep,hpop,Idle]

theorem workerStep_inv (l : WorkerStep) (h : Inv s) (hs : workerStep s l = some t) : Inv t := by
  rcases workerStep_cases hs with ⟨queued,ts,st,m,hw,rfl⟩ | ⟨-,rfl⟩ | ⟨hw,hpermit,rfl⟩ |
    ⟨w,permit,hb,rfl⟩
  · constructor <;> simp [Idle,hw]
  · exact popStep_inv s
  · exact ⟨fun _ hp => h.covered (Or.inl hw) hp,fun _ => hpermit⟩
  · rcases hb with rfl | rfl | rfl <;> constructor <;> simp [Idle]

theorem step_inv (s : System) (l : Label) (t : System) (h : Inv s) (hs : step env s l = some t) :
    Inv t := by
  cases l with
  | socket c l => exact socketStep_inv c l h hs
  | worker l => exact workerStep_inv l h hs
  | cancel =>
    cases hs
    exact ⟨h.covered,h.parked⟩

theorem initial_inv : Inv {} := by
  constructor <;> simp [Idle]

/-- Whenever the worker sleeps on a non-empty queue, somebody is about to wake it:
the very next step of a handler does. -/
theorem no_lost_wakeup (env : ServerEnv) (ls : List Label) (s : System)
    (hr : run (step env) ls {} = some s) (hw : s.worker = .parked)
    (hp : s.queue.pending ≠ []) :
    (s.permit = true ∨ NotifyDue s) ∧
      ∃ c t, step env s (.socket c .notify) = some t ∧ t.worker = .woken := by
  have hi : Inv s := run_invariant (step env) Inv step_inv ls {} s initial_inv hr
  have hcov := hi.covered (Or.inr hw) hp
  refine ⟨hcov,?_⟩
  obtain ⟨c,handled,hph,hn⟩ := hcov.resolve_left (by simp [hi.parked hw])
  refine ⟨c,s.handleNotify c handled,by simp [step,socketStep,hph],?_⟩
  simp [System.handleNotify,hn,System.setConn,System.notifyOne,hw]

/-- The worker parks between the enqueue of a handler and its notification. -/
def parkedSchedule : List Label :=
  [.socket 0 (.connect none),.worker .check,.worker .pop,
    .socket 0 (.text Settings.AgentConfig.default rawFrame),.worker .park]

theorem parkedSchedule_runs : (run (step rawEnv) parkedSchedule {}).isSome = true := by
  decide

theorem no_lost_wakeup_parked :
    ((run (step rawEnv) parkedSchedule {}).get parkedSchedule_runs).queue.pending ≠ [] ∧
      NotifyDue ((run (step rawEnv) parkedSchedule {}).get parkedSchedule_runs) :=
  ⟨by decide,(no_lost_wakeup rawEnv parkedSchedule _ (Option.some_get _).symm (by decide)
    (by decide)).1.resolve_left (by decide)⟩

end YinShu.WorkerWakeup
