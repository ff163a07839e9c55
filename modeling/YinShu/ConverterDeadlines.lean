import YinShu.ConverterSupervision

/-!
# How long a converter is waited for

The call and its reading tasks move as soon as they can. Then the child is killed at
the latest when the timeout, the time for the cleanup command and the time of grace
have passed. After that the call waits for nothing but the death of a killed child;
and where the child has left in time, for nothing but a pipe that somebody else
still holds open. Neither of these two waits has a timer.
-/

set_option autoImplicit false

namespace YinShu.ConverterDeadlines
open YinShu.LabelledRun YinShu.ConverterProcess YinShu.ConverterDrift YinShu.ConverterSupervision

variable (converter : String) (timeout : ℕ) (hasCleanup : Bool)

/-- The steps of the call and of its two reading tasks. -/
def own : Label → Bool
  | .waited | .elapsed | .cleanupSpawned _ | .cleanupWaited | .join | .onPipe _ .readEnd => true
  | .onPipe _ (.read count) => 0 < count
  | _ => false

def CanMove (s : Supervision) : Prop :=
  ∃ l, own l = true ∧ (step converter timeout hasCleanup s l).isSome = true

/-- Time does not pass where the call or one of its tasks can move. -/
def Prompt (s : Supervision) : Label → Prop
  | .tick duration =>
    ∀ m < duration, ¬ CanMove converter timeout hasCleanup { s with now := s.now+m }
  | _ => True

def limit : ℕ :=
  timeout+(if hasCleanup then timeoutCleanupTimeout else 0)+converterExitGrace

def OnTime (s : Supervision) : Prop :=
  match s.phase with
  | .waiting deadline => s.now ≤ deadline
  | .cleanupStarting => s.now ≤ s.started+timeout
  | .cleaning deadline => s.now ≤ deadline ∧
    deadline+converterExitGrace ≤ s.started+limit timeout hasCleanup
  | .grace deadline => s.now ≤ deadline ∧ deadline ≤ s.started+limit timeout hasCleanup
  | _ => True

def KillsInTime (s : Supervision) : Prop :=
  ∀ kill ∈ s.kills, kill.cause = .graceOver →
    kill.time ≤ s.started+limit timeout hasCleanup

/-- Until the call is over its readers are at work. -/
def ReadersAtWork (s : Supervision) : Prop :=
  (s.phase = .idle ∨ s.phase.active = true) → ∀ stream, (s.pipe stream).reader ≠ .aborted

structure Punctual (s : Supervision) : Prop where
  onTime : OnTime timeout hasCleanup s
  kills : KillsInTime timeout hasCleanup s
  readers : ReadersAtWork s

def deadline : Phase → Option ℕ
  | .waiting deadline | .cleaning deadline | .grace deadline => some deadline
  | _ => none

def joins : Phase → Option Stream
  | .joiningStdout _ => some .stdout
  | .joiningStderr _ _ => some .stderr
  | _ => none

/-- What a call that cannot move is waiting for. -/
inductive Awaits (s : Supervision) : Prop where
  | timer (time : ℕ) (h : deadline s.phase = some time) (early : s.now < time)
  | death (h : s.phase = .killing) (killed : s.kills ≠ []) (alive : s.child = .running)
  | pipe (stream : Stream) (h : joins s.phase = some stream)
      (held : (s.pipe stream).closed = false)

section Progress

variable {converter timeout hasCleanup} {s t : Supervision}

theorem unreaped_cases {process : Process} (h : process.unreaped = true) :
    process = .running ∨ ∃ status, process = .exited status := by
  cases process with
  | running => exact .inl rfl
  | exited status => exact .inr ⟨status,rfl⟩
  | _ => simp [Process.unreaped] at h

/-- A timer for the child is pending, or the call can move. -/
theorem child_timer {time : ℕ} (hp : s.phase = .waiting time ∨ s.phase = .grace time)
    (hchild : s.child.unreaped = true) :
    CanMove converter timeout hasCleanup s ∨ s.now < time := by
  by_cases hready : time ≤ s.now
  · left
    rcases unreaped_cases hchild with hrunning | ⟨status,hexited⟩
    · refine ⟨.elapsed,rfl,?_⟩
      rcases hp with hp | hp <;> simp [step,timerElapsed,hp,hready,hrunning]
    · refine ⟨.waited,rfl,?_⟩
      rcases hp with hp | hp <;> simp [step,childWaited,hp,hexited]
  · exact .inr (Nat.not_le.mp hready)

theorem cleanup_timer {time : ℕ} (hp : s.phase = .cleaning time)
    (hcleanup : s.cleanup.unreaped = true) :
    CanMove converter timeout hasCleanup s ∨ s.now < time := by
  by_cases hready : time ≤ s.now
  · left
    rcases unreaped_cases hcleanup with hrunning | ⟨status,hexited⟩
    · exact ⟨.elapsed,rfl,by simp [step,timerElapsed,hp,hready,hrunning]⟩
    · exact ⟨.cleanupWaited,rfl,by simp [step,hp,hexited]⟩
  · exact .inr (Nat.not_le.mp hready)

theorem joining_progress (hi : Inv converter timeout hasCleanup s) (hr : ReadersAtWork s)
    {stream : Stream} (hj : joins s.phase = some stream) (hchild : s.child ≠ .absent)
    (hactive : s.phase.active = true)
    (hjoin : ∀ result, (s.pipe stream).reader = .finished result → (joined s).isSome = true) :
    CanMove converter timeout hasCleanup s ∨ Awaits s := by
  have hsound := hi.sound stream
  have hwork := hr (.inr hactive) stream
  have hevent (event : PipeEvent) :
      step converter timeout hasCleanup s (.onPipe stream event) =
        ((s.pipe stream).step event).map (s.setPipe stream) := by
    cases hc : s.child with
    | absent => exact absurd hc hchild
    | _ => simp [step,hc]
  unfold Pipe.Sound at hsound
  cases hreader : (s.pipe stream).reader with
  | reading taken =>
    rw [hreader] at hsound
    by_cases hmore : taken < (s.pipe stream).written.length
    · left
      refine ⟨.onPipe stream (.read 1),rfl,?_⟩
      rw [hevent]
      simp [Pipe.step,hreader,Nat.succ_le_of_lt hmore]
    · have hend : taken = (s.pipe stream).written.length := by
        change taken ≤ _ at hsound
        omega
      by_cases hclosed : (s.pipe stream).closed = true
      · left
        refine ⟨.onPipe stream .readEnd,rfl,?_⟩
        rw [hevent]
        simp [Pipe.step,hreader,hclosed,hend]
      · exact .inr (.pipe stream hj (Bool.eq_false_iff.mpr hclosed))
  | finished result => exact .inl ⟨.join,rfl,hjoin result hreader⟩
  | aborted => exact absurd hreader hwork

/-- A call under way can move, or it waits for a timer that will run out, for the death
of a child that was killed, or for a pipe that is held open. -/
theorem progress (hi : Inv converter timeout hasCleanup s) (hr : ReadersAtWork s)
    (hactive : s.phase.active = true) : CanMove converter timeout hasCleanup s ∨ Awaits s := by
  have hplaced := hi.placed
  unfold Placed at hplaced
  cases hp : s.phase with
  | waiting time =>
    rw [hp] at hplaced
    rcases child_timer (.inl hp) hplaced.1 with hmove | hearly
    · exact .inl hmove
    · exact .inr (.timer time (by rw [hp]; rfl) hearly)
  | cleanupStarting => exact .inl ⟨.cleanupSpawned false,rfl,by simp [step,hp]⟩
  | cleaning time =>
    rw [hp] at hplaced
    rcases cleanup_timer hp hplaced.2.2.2.1 with hmove | hearly
    · exact .inl hmove
    · exact .inr (.timer time (by rw [hp]; rfl) hearly)
  | grace time =>
    rw [hp] at hplaced
    rcases child_timer (.inr hp) hplaced.1 with hmove | hearly
    · exact .inl hmove
    · exact .inr (.timer time (by rw [hp]; rfl) hearly)
  | killing =>
    rw [hp] at hplaced
    rcases unreaped_cases hplaced.2.1 with hrunning | ⟨status,hexited⟩
    · exact .inr (.death hp hplaced.1 hrunning)
    · exact .inl ⟨.waited,rfl,by simp [step,childWaited,hp,hexited]⟩
  | joiningStdout status =>
    rw [hp] at hplaced
    apply joining_progress hi hr (by rw [hp]; rfl) (by simp [hplaced.1]) hactive
    intro result hresult
    cases result <;> simp [joined,hp,hresult]
  | joiningStderr status stdout =>
    rw [hp] at hplaced
    apply joining_progress hi hr (by rw [hp]; rfl) (by simp [hplaced.1]) hactive
    intro result hresult
    cases result <;> simp [joined,hp,hresult]
  | _ => simp [hp,Phase.active] at hactive

/-- As long as one of its timers is pending, no time passes beyond it. -/
theorem prompt_timer {duration time : ℕ}
    (hprompt : Prompt converter timeout hasCleanup s (.tick duration)) (hnow : s.now ≤ time)
    (hmoves : ∀ now, time ≤ now → CanMove converter timeout hasCleanup { s with now := now }) :
    s.now+duration ≤ time := by
  by_contra hlate
  exact hprompt (time-s.now) (by omega) (hmoves _ (by omega))

theorem tick_onTime {duration : ℕ} (hi : Inv converter timeout hasCleanup s)
    (htime : OnTime timeout hasCleanup s)
    (hprompt : Prompt converter timeout hasCleanup s (.tick duration)) :
    OnTime timeout hasCleanup { s with now := s.now+duration } := by
  have hplaced := hi.placed
  unfold Placed at hplaced
  unfold OnTime at htime ⊢
  cases hp : s.phase with
  | waiting time =>
    rw [hp] at hplaced htime
    refine prompt_timer hprompt htime (fun now hnow => ?_)
    rcases child_timer (s := { s with now := now }) (.inl hp) hplaced.1 with hmove | hearly
    · exact hmove
    · exact absurd hnow (Nat.not_le.mpr hearly)
  | cleanupStarting =>
    rw [hp] at htime
    have hmove (now : ℕ) : CanMove converter timeout hasCleanup { s with now := now } :=
      ⟨.cleanupSpawned false,rfl,by simp [step,hp]⟩
    by_cases hzero : duration = 0
    · simpa [hp,hzero] using htime
    · exact absurd (hmove _) (hprompt 0 (Nat.pos_of_ne_zero hzero))
  | cleaning time =>
    rw [hp] at hplaced htime
    refine ⟨prompt_timer hprompt htime.1 (fun now hnow => ?_),htime.2⟩
    rcases cleanup_timer (s := { s with now := now }) hp hplaced.2.2.2.1 with hmove | hearly
    · exact hmove
    · exact absurd hnow (Nat.not_le.mpr hearly)
  | grace time =>
    rw [hp] at hplaced htime
    refine ⟨prompt_timer hprompt htime.1 (fun now hnow => ?_),htime.2⟩
    rcases child_timer (s := { s with now := now }) (.inr hp) hplaced.1 with hmove | hearly
    · exact hmove
    · exact absurd hnow (Nat.not_le.mpr hearly)
  | _ => trivial

end Progress

section Steps

variable {converter timeout hasCleanup} {s t : Supervision}

theorem ended_punctual {phase : Phase} (hp : phase = .dropped ∨ ∃ reply, phase = .returned reply)
    (hk : KillsInTime timeout hasCleanup s) : Punctual timeout hasCleanup (s.finish phase) := by
  refine ⟨?_,fun kill hkill hcause => ?_,?_⟩
  · rcases hp with rfl | ⟨reply,rfl⟩ <;> trivial
  · unfold Supervision.finish at hkill
    split at hkill
    · rcases List.mem_append.mp hkill with hold | hnew
      · exact hk kill hold hcause
      · rw [List.mem_singleton.mp hnew] at hcause
        cases hcause
    · exact hk kill hkill hcause
  · rcases hp with rfl | ⟨reply,rfl⟩ <;> intro hactive <;> rcases hactive with hactive | hactive <;>
      cases hactive

/-- What happens beside the call while the clock stands still. -/
theorem drift_punctual (h : Punctual timeout hasCleanup s) (hd : Drift s t) (hnow : t.now = s.now)
    (hpipes : ∀ stream, (s.pipe stream).reader ≠ .aborted → (t.pipe stream).reader ≠ .aborted) :
    Punctual timeout hasCleanup t where
  onTime := by
    have htime := h.onTime
    unfold OnTime at htime ⊢
    rw [hd.phase,hnow,hd.started]
    exact htime
  kills := by
    intro kill hkill hcause
    rw [hd.kills] at hkill
    rw [hd.started]
    exact h.kills kill hkill hcause
  readers := by
    intro hactive stream
    rw [hd.phase] at hactive
    exact hpipes stream (h.readers hactive stream)

theorem pipe_step_at_work {p q : Pipe} {event : PipeEvent} (hp : p.reader ≠ .aborted)
    (h : p.step event = some q) : q.reader ≠ .aborted := by
  cases event with
  | write bytes =>
    simp only [Pipe.step] at h
    split at h
    · cases h
    · cases h
      exact hp
  | close =>
    simp only [Pipe.step] at h
    split at h
    · cases h
    · cases h
      exact hp
  | read count =>
    cases hr : p.reader <;> simp only [Pipe.step,hr] at h
    case reading taken =>
      split at h
      · cases h
        simp
      · cases h
    all_goals cases h
  | readEnd =>
    cases hr : p.reader <;> simp only [Pipe.step,hr] at h
    case reading taken =>
      split at h
      · cases h
        simp
      · cases h
    all_goals cases h
  | readFault error =>
    cases hr : p.reader <;> simp only [Pipe.step,hr] at h <;> cases h
    simp

theorem grace_punctual (h : Punctual timeout hasCleanup s) (hactive : s.phase.active = true)
    (hnow : s.now+converterExitGrace ≤ s.started+limit timeout hasCleanup) :
    Punctual timeout hasCleanup s.giveGrace where
  onTime := ⟨Nat.le_add_right _ _,hnow⟩
  kills := h.kills
  readers _ := h.readers (.inr hactive)

theorem waited_punctual (h : Punctual timeout hasCleanup s) {status : ExitStatus}
    (ht : childWaited converter timeout s status = some t) : Punctual timeout hasCleanup t := by
  unfold childWaited at ht
  cases hp : s.phase with
  | waiting time =>
    rw [hp] at ht
    cases ht
    exact ⟨trivial,h.kills,fun _ => h.readers (.inr (by rw [hp]; rfl))⟩
  | grace time =>
    rw [hp] at ht
    cases ht
    exact ended_punctual (.inr ⟨_,rfl⟩) h.kills
  | killing =>
    rw [hp] at ht
    cases ht
    exact ended_punctual (.inr ⟨_,rfl⟩) h.kills
  | _ => simp [hp] at ht

theorem elapsed_punctual (hi : Inv converter timeout hasCleanup s)
    (h : Punctual timeout hasCleanup s) (ht : timerElapsed hasCleanup s = some t) :
    Punctual timeout hasCleanup t := by
  have hplaced := hi.placed
  have htime := h.onTime
  unfold Placed at hplaced
  unfold OnTime at htime
  unfold timerElapsed at ht
  cases hp : s.phase with
  | waiting time =>
    rw [hp] at hplaced htime
    simp only [hp] at ht
    have hactive : s.phase.active = true := by rw [hp]; rfl
    split at ht
    · obtain ⟨-,-,rfl⟩ := hplaced
      cases hasCleanup with
      | true =>
        cases ht
        exact ⟨htime,h.kills,fun _ => h.readers (.inr hactive)⟩
      | false =>
        cases ht
        apply grace_punctual h hactive
        simp only [limit,Bool.false_eq_true,if_false]
        change s.now ≤ s.started+timeout at htime
        omega
    · cases ht
  | cleaning time =>
    rw [hp] at htime
    simp only [hp] at ht
    split at ht
    · cases ht
      have hpunctual : Punctual timeout hasCleanup s.dropCleanup := ⟨h.onTime,h.kills,h.readers⟩
      apply grace_punctual hpunctual (by change s.phase.active = true; rw [hp]; rfl)
      exact (Nat.add_le_add_right htime.1 _).trans htime.2
    · cases ht
  | grace time =>
    rw [hp] at hplaced htime
    simp only [hp] at ht
    split at ht
    · cases ht
      refine ⟨trivial,fun kill hkill _ => ?_,fun _ => h.readers (.inr (by rw [hp]; rfl))⟩
      have hnew : kill = ⟨.graceOver,s.now⟩ := by simpa [hplaced.2.1] using hkill
      rw [hnew]
      exact htime.1.trans htime.2
    · cases ht
  | _ => simp [hp] at ht

theorem cleanupSpawned_punctual (hi : Inv converter timeout hasCleanup s)
    (h : Punctual timeout hasCleanup s) (hp : s.phase = .cleanupStarting) (error : Bool) :
    Punctual timeout hasCleanup (if error then { s with cleanups := s.cleanups+1 }.giveGrace
      else { s with
        phase := .cleaning (s.now+timeoutCleanupTimeout), cleanup := .running,
        cleanups := s.cleanups+1 }) := by
  have hplaced := hi.placed
  have htime := h.onTime
  unfold Placed at hplaced
  unfold OnTime at htime
  rw [hp] at hplaced htime
  have hactive : s.phase.active = true := by rw [hp]; rfl
  have hlimit : s.now+timeoutCleanupTimeout+converterExitGrace ≤
      s.started+limit timeout hasCleanup := by
    rw [limit,hplaced.2.2.1,if_pos rfl]
    change s.now ≤ s.started+timeout at htime
    omega
  cases error with
  | true =>
    have hpunctual : Punctual timeout hasCleanup { s with cleanups := s.cleanups+1 } :=
      ⟨h.onTime,h.kills,h.readers⟩
    apply grace_punctual hpunctual hactive
    change s.now+converterExitGrace ≤ s.started+limit timeout hasCleanup
    omega
  | false => exact ⟨⟨Nat.le_add_right _ _,hlimit⟩,h.kills,fun _ => h.readers (.inr hactive)⟩

theorem joined_punctual (h : Punctual timeout hasCleanup s) (ht : joined s = some t) :
    Punctual timeout hasCleanup t := by
  unfold joined at ht
  cases hp : s.phase with
  | joiningStdout status =>
    simp only [hp] at ht
    split at ht <;> cases ht
    · exact ⟨trivial,h.kills,fun _ => h.readers (.inr (by rw [hp]; rfl))⟩
    · exact ended_punctual (.inr ⟨_,rfl⟩) h.kills
  | joiningStderr status stdout =>
    simp only [hp] at ht
    split at ht <;> cases ht
    · exact ended_punctual (.inr ⟨_,rfl⟩) h.kills
    · exact ended_punctual (.inr ⟨_,rfl⟩) h.kills
  | _ => simp [hp] at ht

/-- The end of the time for the cleanup command, whatever became of it. -/
theorem cleaned_punctual (h : Punctual timeout hasCleanup s) {time : ℕ}
    (hp : s.phase = .cleaning time) (cleanup : Process) (killed : Bool) :
    Punctual timeout hasCleanup
      { s with cleanup := cleanup, cleanupKilled := killed }.giveGrace := by
  have htime := h.onTime
  unfold OnTime at htime
  rw [hp] at htime
  have hpunctual : Punctual timeout hasCleanup
      { s with cleanup := cleanup, cleanupKilled := killed } := ⟨h.onTime,h.kills,h.readers⟩
  apply grace_punctual hpunctual (by change s.phase.active = true; rw [hp]; rfl)
  exact (Nat.add_le_add_right htime.1 _).trans htime.2

theorem step_punctual (hi : Inv converter timeout hasCleanup s)
    (h : Punctual timeout hasCleanup s) {l : Label}
    (hprompt : Prompt converter timeout hasCleanup s l)
    (ht : step converter timeout hasCleanup s l = some t) : Punctual timeout hasCleanup t := by
  cases l with
  | tick duration =>
    cases ht
    exact ⟨tick_onTime hi h.onTime hprompt,h.kills,h.readers⟩
  | spawn error =>
    have hplaced := hi.placed
    unfold Placed at hplaced
    cases hp : s.phase <;> simp only [step,hp] at ht <;> cases ht
    rw [hp] at hplaced
    cases error with
    | none =>
      refine ⟨Nat.le_add_right _ _,fun kill hkill => ?_,fun _ => h.readers (.inl hp)⟩
      change kill ∈ s.kills at hkill
      simp [hplaced.2.1] at hkill
    | some error => cases error <;> exact ended_punctual (.inr ⟨_,rfl⟩) h.kills
  | childExits status =>
    cases hc : s.child <;> simp only [step,hc] at ht <;> cases ht
    exact drift_punctual h (childExits_drift hc status) rfl (fun _ hr => hr)
  | cleanupExits status =>
    cases hc : s.cleanup <;> simp only [step,hc] at ht <;> cases ht
    exact drift_punctual h (cleanupExits_drift hc status) rfl (fun _ hr => hr)
  | onPipe stream event =>
    have hpipe : ((s.pipe stream).step event).map (s.setPipe stream) = some t := by
      cases hc : s.child <;> simp only [step,hc] at ht
      · cases ht
      all_goals exact ht
    obtain ⟨pipe,hstep,rfl⟩ := Option.map_eq_some_iff.mp hpipe
    apply drift_punctual h (onPipe_drift hstep) rfl
    intro other hother
    by_cases hsame : other = stream
    · subst hsame
      simpa [Supervision.setPipe] using pipe_step_at_work hother hstep
    · simpa [Supervision.setPipe,hsame] using hother
  | waited =>
    cases hc : s.child <;> simp only [step,hc] at ht
    case exited status => exact waited_punctual h ht
    all_goals cases ht
  | waitFault error =>
    cases hp : s.phase <;> simp only [step,hp] at ht <;> cases ht <;>
      exact ended_punctual (.inr ⟨_,rfl⟩) h.kills
  | elapsed => exact elapsed_punctual hi h ht
  | cleanupSpawned error =>
    cases hp : s.phase <;> simp only [step,hp] at ht <;> cases ht
    exact cleanupSpawned_punctual hi h hp error
  | cleanupWaited =>
    cases hp : s.phase <;> cases hc : s.cleanup <;> simp only [step,hp,hc] at ht <;> cases ht
    exact cleaned_punctual h hp _ s.cleanupKilled
  | cleanupFault =>
    cases hp : s.phase <;> simp only [step,hp] at ht <;> cases ht
    exact cleaned_punctual h hp s.cleanup _
  | join => exact joined_punctual h ht
  | abandon =>
    simp only [step] at ht
    split at ht
    · cases ht
      exact ended_punctual (.inl rfl) h.kills
    · cases ht

theorem initial_punctual : Punctual timeout hasCleanup {} where
  onTime := trivial
  kills _ hkill := by simp at hkill
  readers _ _ := by simp

/-- Until the child has been killed or has left, the clock is inside the limit. -/
theorem within_limit (hi : Inv converter timeout hasCleanup s) (h : OnTime timeout hasCleanup s)
    (hp : (deadline s.phase).isSome = true ∨ s.phase = .cleanupStarting) :
    s.now ≤ s.started+limit timeout hasCleanup := by
  have hplaced := hi.placed
  unfold Placed at hplaced
  unfold OnTime at h
  cases hphase : s.phase with
  | waiting time =>
    rw [hphase] at hplaced h
    obtain ⟨-,-,rfl⟩ := hplaced
    change s.now ≤ s.started+timeout at h
    unfold limit
    omega
  | cleanupStarting =>
    rw [hphase] at h
    change s.now ≤ s.started+timeout at h
    unfold limit
    omega
  | cleaning time =>
    rw [hphase] at h
    omega
  | grace time =>
    rw [hphase] at h
    omega
  | _ => simp [hphase,deadline] at hp

end Steps

/-- The call waits for the child no longer than the timeout, the time for the cleanup
command and the time of grace, and after that only for what has no timer. -/
theorem converter_waits_bounded (ls : List Label) (s : Supervision)
    (hprompt : Guarded (step converter timeout hasCleanup) (Prompt converter timeout hasCleanup)
      ls {})
    (h : run (step converter timeout hasCleanup) ls {} = some s) :
    ((deadline s.phase).isSome = true ∨ s.phase = .cleanupStarting →
      s.now ≤ s.started+limit timeout hasCleanup) ∧
    KillsInTime timeout hasCleanup s ∧
    (s.phase.active = true → CanMove converter timeout hasCleanup s ∨ Awaits s) := by
  have htimed := guarded_invariant (step converter timeout hasCleanup)
    (Prompt converter timeout hasCleanup)
    (fun s => Inv converter timeout hasCleanup s ∧ Punctual timeout hasCleanup s)
    (fun s l t hs hp ht => ⟨step_inv s l t hs.1 ht,step_punctual hs.1 hs.2 hp ht⟩)
    ls {} s ⟨initial_inv,initial_punctual⟩ hprompt h
  exact ⟨within_limit htimed.1 htimed.2.onTime,htimed.2.kills,
    progress htimed.1 htimed.2.readers⟩

/-- The child leaves at once; somebody who inherited its output keeps it open. -/
def heldPipe : List Label := [.spawn none,.childExits ⟨some 0⟩,.waited,.tick 1000000]

theorem converter_waits_bounded_held :
    ∃ s, run (step "LibreOffice" 120000 false) heldPipe {} = some s ∧
      s.phase = .joiningStdout ⟨some 0⟩ ∧ s.started+limit 120000 false < s.now ∧
      (CanMove "LibreOffice" 120000 false s ∨ Awaits s) := by
  have hprompt : Guarded (step "LibreOffice" 120000 false) (Prompt "LibreOffice" 120000 false)
      heldPipe {} := by
    refine ⟨trivial,fun t ht => ⟨trivial,fun u hu => ⟨trivial,fun v hv => ⟨?_,fun _ _ => trivial⟩⟩⟩⟩
    cases ht
    cases hu
    cases hv
    intro m _ hmove
    obtain ⟨l,hl,hs⟩ := hmove
    cases l with
    | onPipe stream event => cases event <;> simp_all [own,step,spawned,Pipe.step]
    | _ => simp_all [own,step,spawned,timerElapsed,joined]
  obtain ⟨-,-,hprogress⟩ :=
    converter_waits_bounded "LibreOffice" 120000 false heldPipe _ hprompt rfl
  exact ⟨_,rfl,rfl,by decide,hprogress rfl⟩

end YinShu.ConverterDeadlines
