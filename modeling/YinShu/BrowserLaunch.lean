import Mathlib.Data.List.Nodup
import Mathlib.Logic.Function.Basic
import YinShu.LabelledRun

/-!
# The browser launch gate

Any number of calls of `launch_with_timeout` compete for one flag under a
mutex with a condition variable. The guard of the flag goes to the launch
thread and outlives a caller that has given up. A critical section is one
step; between two of them the clock may advance, a sleeping call may wake for
its timeout or for no reason, and a launch may end, panic or hang. The thread
that `notify_one` wakes is chosen by the label.
-/

set_option autoImplicit false

namespace YinShu.BrowserLaunch
open YinShu.LabelledRun

variable {β : Type}

inductive Attempt (β : Type) where
  | ok (browser : β)
  | failed (error : String)
  | timedOut (timeoutMs : ℕ)
  deriving DecidableEq, Repr

/-- What the launch closure does, where it comes to an end. -/
inductive Outcome (β : Type) where
  | ok (browser : β)
  | error (message : String)
  | panicked
  deriving DecidableEq, Repr

inductive Phase (β : Type) where
  | idle
  | locking
  | sleeping
  | woken (timedOut : Bool)
  | granted
  | spawning (remaining : ℕ)
  | receiving (expiry : ℕ)
  | releasing (attempt : Attempt β)
  | returned (attempt : Attempt β)
  deriving DecidableEq, Repr

inductive Worker where
  | absent
  | launching
  | releasing
  | ended
  deriving DecidableEq, Repr

/-- One call, its launch thread and the channel between them. -/
structure Call (β : Type) where
  phase : Phase β := .idle
  deadline : ℕ := 0
  timeoutMs : ℕ := 0
  worker : Worker := .absent
  message : Option (Except String β) := none

def Phase.holds : Phase β → Bool
  | .granted | .spawning _ | .releasing _ => true
  | _ => false

def Worker.holds : Worker → Bool
  | .launching | .releasing => true
  | _ => false

/-- The guard of the flag is with the caller or with the launch thread. -/
def Call.holds (c : Call β) : Bool := c.phase.holds || c.worker.holds

structure Gate (β : Type) where
  inProgress : Bool := false
  waiting : List ℕ := []
  now : ℕ := 0
  calls : ℕ → Call β := fun _ => {}

inductive Label (β : Type) where
  | tick (elapsed : ℕ)
  | begin (i timeout timeoutMs : ℕ)
  | lock (i : ℕ)
  | wake (i : ℕ) (timedOut : Bool)
  | check (i : ℕ)
  | spawn (i : ℕ) (error : Option String)
  | launched (i : ℕ) (outcome : Outcome β)
  | receive (i : ℕ)
  | expire (i : ℕ)
  | release (i chosen : ℕ)

def Gate.setCall (s : Gate β) (i : ℕ) (c : Call β) : Gate β :=
  { s with calls := Function.update s.calls i c }

def Gate.setPhase (s : Gate β) (i : ℕ) (phase : Phase β) : Gate β :=
  s.setCall i { s.calls i with phase := phase }

/-- `while *in_progress` in `acquire`, up to the next wait or the end of the loop. -/
def acquire (s : Gate β) (i : ℕ) : Gate β :=
  if s.inProgress then
    if (s.calls i).deadline-s.now = 0 then
      s.setPhase i (.returned (.timedOut (s.calls i).timeoutMs))
    else { s.setPhase i .sleeping with waiting := s.waiting++[i] }
  else { s.setPhase i .granted with inProgress := true }

/-- What follows `wait_timeout`, under the lock again. -/
def relock (s : Gate β) (i : ℕ) (timedOut : Bool) : Gate β :=
  if timedOut && s.inProgress then
    s.setPhase i (.returned (.timedOut (s.calls i).timeoutMs))
  else acquire s i

def wakeUp (s : Gate β) (i : ℕ) (timedOut : Bool) : Gate β :=
  { s.setPhase i (.woken timedOut) with waiting := s.waiting.erase i }

/-- `BrowserLaunchGuard::drop`: the flag is cleared and a waiting call is notified. -/
def dropGuard (s : Gate β) (chosen : ℕ) : Option (Gate β) :=
  if s.waiting = [] then some { s with inProgress := false }
  else if chosen ∈ s.waiting then some (wakeUp { s with inProgress := false } chosen false)
  else none

def Outcome.message : Outcome β → Option (Except String β)
  | .ok browser => some (.ok browser)
  | .error message => some (.error message)
  | .panicked => none

def Attempt.ofMessage : Except String β → Attempt β
  | .ok browser => .ok browser
  | .error error => .failed error

def stopped : String := "browser launch worker stopped unexpectedly"

def step (s : Gate β) : Label β → Option (Gate β)
  | .tick elapsed => some { s with now := s.now+elapsed }
  | .begin i timeout timeoutMs =>
    match (s.calls i).phase with
    | .idle => some (s.setCall i { s.calls i with
        phase := .locking, deadline := s.now+timeout, timeoutMs := timeoutMs })
    | _ => none
  | .lock i =>
    match (s.calls i).phase with
    | .locking => some (acquire s i)
    | .woken timedOut => some (relock s i timedOut)
    | _ => none
  | .wake i timedOut =>
    match (s.calls i).phase with
    | .sleeping =>
      if timedOut = true → (s.calls i).deadline ≤ s.now then some (wakeUp s i timedOut) else none
    | _ => none
  | .check i =>
    match (s.calls i).phase with
    | .granted =>
      if (s.calls i).deadline-s.now = 0 then
        some (s.setPhase i (.releasing (.timedOut (s.calls i).timeoutMs)))
      else some (s.setPhase i (.spawning ((s.calls i).deadline-s.now)))
    | _ => none
  | .spawn i error =>
    match (s.calls i).phase,error with
    | .spawning remaining,none =>
      some (s.setCall i { s.calls i with
        phase := .receiving (s.now+remaining), worker := .launching })
    | .spawning _,some error => some (s.setPhase i (.releasing (.failed error)))
    | _,_ => none
  | .launched i outcome =>
    match (s.calls i).worker with
    | .launching => some (s.setCall i { s.calls i with
        worker := .releasing, message := outcome.message })
    | _ => none
  | .receive i =>
    match (s.calls i).phase,(s.calls i).message,(s.calls i).worker with
    | .receiving _,some message,_ => some (s.setPhase i (.returned (.ofMessage message)))
    | .receiving _,none,.ended => some (s.setPhase i (.returned (.failed stopped)))
    | _,_,_ => none
  | .expire i =>
    match (s.calls i).phase,(s.calls i).message with
    | .receiving expiry,none =>
      if expiry ≤ s.now then some (s.setPhase i (.returned (.timedOut (s.calls i).timeoutMs)))
      else none
    | _,_ => none
  | .release i chosen =>
    match (s.calls i).phase,(s.calls i).worker with
    | .releasing attempt,_ => dropGuard (s.setPhase i (.returned attempt)) chosen
    | _,.releasing => dropGuard (s.setCall i { s.calls i with worker := .ended }) chosen
    | _,_ => none

section Invariant

/-- What has to be true when a call ends in this way. -/
def Justified (now : ℕ) (c : Call β) : Attempt β → Prop
  | .ok browser => c.message = some (.ok browser)
  | .failed error => c.worker = .absent ∨ c.message = some (.error error) ∨ error = stopped
  | .timedOut timeoutMs => timeoutMs = c.timeoutMs ∧ c.deadline ≤ now

def Placed (now : ℕ) (c : Call β) : Prop :=
  match c.phase with
  | .idle | .locking | .sleeping | .granted => c.worker = .absent
  | .woken timedOut => c.worker = .absent ∧ (timedOut = true → c.deadline ≤ now)
  | .spawning remaining => c.worker = .absent ∧ c.deadline ≤ now+remaining
  | .releasing attempt => c.worker = .absent ∧ Justified now c attempt
  | .receiving expiry => c.worker ≠ .absent ∧ c.deadline ≤ expiry
  | .returned attempt => Justified now c attempt

structure CallInv (now : ℕ) (c : Call β) : Prop where
  quiet : c.worker = .absent ∨ c.worker = .launching → c.message = none
  placed : Placed now c

/-- The one call that holds the guard, if any. -/
def Held (s : Gate β) (holder : Option ℕ) : Prop :=
  s.inProgress = holder.isSome ∧ ∀ i, (s.calls i).holds = true ↔ holder = some i

def Woken (s : Gate β) : Prop := ∃ i timedOut, (s.calls i).phase = .woken timedOut

structure Kept (s : Gate β) : Prop where
  calls : ∀ i, CallInv s.now (s.calls i)
  held : ∃ holder, Held s holder
  waiting : ∀ i, i ∈ s.waiting ↔ (s.calls i).phase = .sleeping
  nodup : s.waiting.Nodup

/-- Whenever the flag is clear and calls sleep, another call is awake to take it. -/
structure Inv (s : Gate β) : Prop extends Kept s where
  roused : s.inProgress = false → s.waiting ≠ [] → Woken s

/-- What a step does to the gate. -/
inductive Move (s : Gate β) : Gate β → Prop
  | tick (elapsed : ℕ) : Move s { s with now := s.now+elapsed }
  | keep (i : ℕ) (c : Call β) (hc : CallInv s.now c) (hh : c.holds = (s.calls i).holds)
      (hs : (s.calls i).phase ≠ .sleeping) (hs' : c.phase ≠ .sleeping)
      (hw : ∀ timedOut, (s.calls i).phase = .woken timedOut → s.inProgress = true) :
      Move s (s.setCall i c)
  | sleep (i : ℕ) (hh : (s.calls i).worker = .absent) (hn : (s.calls i).holds = false)
      (hs : (s.calls i).phase ≠ .sleeping) (hp : s.inProgress = true) :
      Move s { s.setPhase i .sleeping with waiting := s.waiting++[i] }
  | take (i : ℕ) (hh : (s.calls i).worker = .absent) (hs : (s.calls i).phase ≠ .sleeping)
      (hp : s.inProgress = false) : Move s { s.setPhase i .granted with inProgress := true }
  | wake (i : ℕ) (timedOut : Bool) (hs : (s.calls i).phase = .sleeping)
      (hd : timedOut = true → (s.calls i).deadline ≤ s.now) : Move s (wakeUp s i timedOut)
  | release (i chosen : ℕ) (c : Call β) (t : Gate β) (hc : CallInv s.now c)
      (hh : (s.calls i).holds = true) (hn : c.holds = false)
      (hs : (s.calls i).phase ≠ .sleeping) (hs' : c.phase ≠ .sleeping)
      (ht : dropGuard (s.setCall i c) chosen = some t) : Move s t

variable {s t : Gate β} {i : ℕ} {now : ℕ} {c : Call β}

theorem Justified.mono {attempt : Attempt β} (h : Justified now c attempt) (elapsed : ℕ) :
    Justified (now+elapsed) c attempt := by
  cases attempt with
  | timedOut timeoutMs => exact ⟨h.1,Nat.le_add_right_of_le h.2⟩
  | _ => exact h

theorem CallInv.mono (h : CallInv now c) (elapsed : ℕ) : CallInv (now+elapsed) c where
  quiet := h.quiet
  placed := by
    have hp := h.placed
    unfold Placed at hp ⊢
    split at hp
    all_goals first
      | exact hp
      | exact ⟨hp.1,hp.2.mono elapsed⟩
      | exact hp.mono elapsed
      | exact ⟨hp.1,fun ht => Nat.le_add_right_of_le (hp.2 ht)⟩
      | exact ⟨hp.1,by omega⟩

theorem acquire_move (hw : (s.calls i).worker = .absent) (hm : (s.calls i).message = none)
    (hn : (s.calls i).phase.holds = false) (hs : (s.calls i).phase ≠ .sleeping) :
    Move s (acquire s i) := by
  unfold acquire
  split_ifs with hp hd
  · refine .keep i _ ⟨fun _ => hm,rfl,by simp only; omega⟩ ?_ hs (by simp) (fun _ _ => hp)
    simp only [Call.holds,hn]
    rfl
  · exact .sleep i hw (by simp [Call.holds,Worker.holds,hn,hw]) hs hp
  · exact .take i hw hs (by simpa using hp)

theorem relock_move {timedOut : Bool} (hw : (s.calls i).worker = .absent)
    (hm : (s.calls i).message = none) (hp : (s.calls i).phase = .woken timedOut)
    (hd : timedOut = true → (s.calls i).deadline ≤ s.now) :
    Move s (relock s i timedOut) := by
  unfold relock
  split_ifs with ht
  · rw [Bool.and_eq_true] at ht
    exact .keep i _ ⟨fun _ => hm,rfl,hd ht.1⟩ (by simp [Call.holds,Phase.holds,hp])
      (by simp [hp]) (by simp) (fun _ _ => ht.2)
  · exact acquire_move hw hm (by simp [Phase.holds,hp]) (by simp [hp])

/-- A launch that comes to an end has a caller that waits for it or has given up. -/
theorem launched_inv (outcome : Outcome β) (hw : c.worker = .launching) (h : CallInv now c) :
    CallInv now { c with worker := .releasing, message := outcome.message } ∧
      c.phase ≠ .sleeping ∧ ∀ timedOut, c.phase ≠ .woken timedOut := by
  obtain ⟨hq,hi⟩ := h
  have hm := hq (Or.inr hw)
  unfold Placed at hi
  split at hi <;> rename_i hp
  case h_8 expiry =>
    refine ⟨⟨by simp,?_⟩,by simp [hp],by simp [hp]⟩
    simp only [Placed,hp]
    exact ⟨by simp,hi.2⟩
  case h_9 attempt =>
    refine ⟨⟨by simp,?_⟩,by simp [hp],by simp [hp]⟩
    simp only [Placed,hp]
    cases attempt with
    | ok browser => simp [Justified,hm] at hi
    | failed error => exact Or.inr (Or.inr (by simpa [Justified,hm,hw] using hi))
    | timedOut timeoutMs => exact hi
  all_goals simp [hw] at hi

theorem ended_inv (hw : c.worker = .releasing) (h : CallInv now c) :
    CallInv now { c with worker := .ended } ∧
      Call.holds { c with worker := .ended } = false ∧ c.phase ≠ .sleeping := by
  obtain ⟨hq,hi⟩ := h
  unfold Placed at hi
  split at hi <;> rename_i hph
  case h_8 expiry =>
    refine ⟨⟨by simp,?_⟩,by simp [Call.holds,Phase.holds,Worker.holds,hph],by simp [hph]⟩
    simp only [Placed,hph]
    exact ⟨by simp,hi.2⟩
  case h_9 attempt =>
    refine ⟨⟨by simp,?_⟩,by simp [Call.holds,Phase.holds,Worker.holds,hph],by simp [hph]⟩
    simp only [Placed,hph]
    cases attempt with
    | ok browser => exact hi
    | failed error => simpa [Justified,hw] using hi
    | timedOut timeoutMs => exact hi
  all_goals simp [hw] at hi

theorem step_move (h : Inv s) (l : Label β) (hs : step s l = some t) : Move s t := by
  cases l with
  | tick elapsed =>
    cases hs
    exact .tick elapsed
  | begin i timeout timeoutMs =>
    obtain ⟨hq,hi⟩ := h.calls i
    simp only [step] at hs
    split at hs <;> cases hs
    rename_i hp
    simp only [Placed,hp] at hi
    exact .keep i _ ⟨hq,hi⟩ (by simp [Call.holds,Phase.holds,hp]) (by simp [hp]) (by simp)
      (by simp [hp])
  | lock i =>
    obtain ⟨hq,hi⟩ := h.calls i
    simp only [step] at hs
    split at hs <;> cases hs <;> rename_i hp <;> simp only [Placed,hp] at hi
    · exact acquire_move hi (hq (Or.inl hi)) (by simp [Phase.holds,hp]) (by simp [hp])
    · exact relock_move hi.1 (hq (Or.inl hi.1)) hp hi.2
  | wake i timedOut =>
    simp only [step] at hs
    split at hs <;> try cases hs
    rename_i hp
    split_ifs at hs with hd
    cases hs
    exact .wake i timedOut hp hd
  | check i =>
    obtain ⟨hq,hi⟩ := h.calls i
    simp only [step] at hs
    split at hs <;> try cases hs
    rename_i hp
    simp only [Placed,hp] at hi
    split_ifs at hs with hd <;> cases hs
    · exact .keep i _ ⟨hq,hi,rfl,by simp only; omega⟩ (by simp [Call.holds,Phase.holds,hp])
        (by simp [hp]) (by simp) (by simp [hp])
    · exact .keep i _ ⟨hq,hi,by simp only; omega⟩ (by simp [Call.holds,Phase.holds,hp])
        (by simp [hp]) (by simp) (by simp [hp])
  | spawn i error =>
    obtain ⟨hq,hi⟩ := h.calls i
    simp only [step] at hs
    split at hs <;> cases hs <;> rename_i hp <;> simp only [Placed,hp] at hi
    · exact .keep i _ ⟨fun _ => hq (Or.inl hi.1),by simp,hi.2⟩
        (by simp [Call.holds,Phase.holds,Worker.holds,hp]) (by simp [hp]) (by simp) (by simp [hp])
    · exact .keep i _ ⟨hq,hi.1,Or.inl hi.1⟩ (by simp [Call.holds,Phase.holds,hp])
        (by simp [hp]) (by simp) (by simp [hp])
  | launched i outcome =>
    simp only [step] at hs
    split at hs <;> cases hs
    rename_i hw
    obtain ⟨hl,hs⟩ := launched_inv outcome hw (h.calls i)
    exact .keep i _ hl (by simp [Call.holds,Worker.holds,hw]) hs.1 hs.1 (by simp [hs.2])
  | receive i =>
    obtain ⟨hq,hi⟩ := h.calls i
    simp only [step] at hs
    split at hs <;> cases hs
    · rename_i message hp hm
      refine .keep i _ ⟨hq,?_⟩ (by simp [Call.holds,Phase.holds,hp]) (by simp [hp]) (by simp)
        (by simp [hp])
      cases message with
      | ok browser => exact hm
      | error error => exact Or.inr (Or.inl hm)
    · rename_i hp _ _
      exact .keep i _ ⟨hq,Or.inr (Or.inr rfl)⟩ (by simp [Call.holds,Phase.holds,hp]) (by simp [hp])
        (by simp) (by simp [hp])
  | expire i =>
    obtain ⟨hq,hi⟩ := h.calls i
    simp only [step] at hs
    split at hs <;> try cases hs
    rename_i hp _
    split_ifs at hs with he
    cases hs
    simp only [Placed,hp] at hi
    exact .keep i _ ⟨hq,rfl,Nat.le_trans hi.2 he⟩ (by simp [Call.holds,Phase.holds,hp])
      (by simp [hp]) (by simp) (by simp [hp])
  | release i chosen =>
    obtain ⟨hq,hi⟩ := h.calls i
    simp only [step] at hs
    split at hs <;> try cases hs
    · rename_i attempt hp
      simp only [Placed,hp] at hi
      exact .release i chosen { s.calls i with phase := .returned attempt } t ⟨hq,hi.2⟩
        (by simp [Call.holds,Phase.holds,hp])
        (by simp [Call.holds,Phase.holds,Worker.holds,hi.1]) (by simp [hp]) (by simp) hs
    · rename_i hw _
      obtain ⟨he,hh,hsl⟩ := ended_inv hw ⟨hq,hi⟩
      exact .release i chosen _ t he (by simp [Call.holds,Worker.holds,hw]) hh hsl hsl hs

theorem setCall_same (s : Gate β) (i : ℕ) (c : Call β) : (s.setCall i c).calls i = c := by
  simp [Gate.setCall]

theorem setCall_other {j : ℕ} (hj : j ≠ i) : (s.setCall i c).calls j = s.calls j := by
  simp [Gate.setCall,hj]

theorem setCall_calls (h : Kept s) (hc : CallInv s.now c) (j : ℕ) :
    CallInv s.now ((s.setCall i c).calls j) := by
  by_cases hj : j = i
  · rwa [hj,setCall_same]
  · rw [setCall_other hj]
    exact h.calls j

theorem setCall_waiting (h : Kept s) (hs : (s.calls i).phase ≠ .sleeping)
    (hs' : c.phase ≠ .sleeping) (j : ℕ) :
    j ∈ s.waiting ↔ ((s.setCall i c).calls j).phase = .sleeping := by
  by_cases hj : j = i
  · rw [hj,setCall_same,h.waiting]
    exact iff_of_false hs hs'
  · rw [setCall_other hj,h.waiting]

theorem Held.setCall {holder : Option ℕ} (h : Held s holder) (hh : c.holds = (s.calls i).holds) :
    Held (s.setCall i c) holder := by
  refine ⟨h.1,fun j => ?_⟩
  by_cases hj : j = i
  · rw [hj,setCall_same,hh]
    exact h.2 i
  · rw [setCall_other hj]
    exact h.2 j

theorem Held.free {holder : Option ℕ} (h : Held s holder) (hp : s.inProgress = false) :
    Held s none := by
  have hn := h.1
  rw [hp] at hn
  rwa [Option.isSome_eq_false_iff.mp hn.symm |> Option.isNone_iff_eq_none.mp] at h

/-- A woken call has left the wait set and will look at the flag again. -/
theorem Kept.wakeUp (h : Kept s) (timedOut : Bool) (hs : (s.calls i).phase = .sleeping)
    (hd : timedOut = true → (s.calls i).deadline ≤ s.now) :
    Kept (wakeUp s i timedOut) ∧ Woken (wakeUp s i timedOut) := by
  obtain ⟨holder,hh⟩ := h.held
  have hi := h.calls i
  have hw : (s.calls i).worker = .absent := by simpa [Placed,hs] using hi.placed
  refine ⟨⟨?_,⟨holder,?_⟩,?_,h.nodup.erase i⟩,i,timedOut,by simp [BrowserLaunch.wakeUp,
    Gate.setPhase,Gate.setCall]⟩
  · exact setCall_calls h ⟨hi.quiet,hw,hd⟩
  · exact hh.setCall (by simp [Call.holds,Phase.holds,hs])
  · intro j
    simp only [BrowserLaunch.wakeUp,Gate.setPhase]
    rw [h.nodup.mem_erase_iff]
    by_cases hj : j = i
    · rw [hj,setCall_same]
      simp
    · rw [setCall_other hj,h.waiting]
      simp [hj]

theorem dropGuard_inv (hc : ∀ j, CallInv s.now (s.calls j))
    (hw : ∀ j, j ∈ s.waiting ↔ (s.calls j).phase = .sleeping) (hd : s.waiting.Nodup)
    (hn : ∀ j, (s.calls j).holds = false) {chosen : ℕ} (ht : dropGuard s chosen = some t) :
    Inv t := by
  have hk : Kept { s with inProgress := false } :=
    ⟨hc,⟨none,rfl,fun j => by simp [hn j]⟩,hw,hd⟩
  unfold dropGuard at ht
  split_ifs at ht with he hm <;> cases ht
  · exact ⟨hk,fun _ hne => absurd he hne⟩
  · obtain ⟨hk',hw⟩ := hk.wakeUp (i := chosen) false ((hw chosen).mp hm) (by simp)
    exact ⟨hk',fun _ _ => hw⟩

theorem Inv.move (h : Inv s) (hm : Move s t) : Inv t := by
  cases hm with
  | tick elapsed =>
    exact ⟨⟨fun i => (h.calls i).mono elapsed,h.held,h.waiting,h.nodup⟩,h.roused⟩
  | keep i c hc hh hs hs' hw =>
    obtain ⟨holder,hheld⟩ := h.held
    refine ⟨⟨setCall_calls h.toKept hc,⟨holder,hheld.setCall hh⟩,
      setCall_waiting h.toKept hs hs',h.nodup⟩,fun hp hne => ?_⟩
    obtain ⟨j,timedOut,hj⟩ := h.roused hp hne
    have hji : j ≠ i := by
      rintro rfl
      exact absurd (hw timedOut hj) (by simpa [Gate.setCall] using hp)
    exact ⟨j,timedOut,by rwa [setCall_other hji]⟩
  | sleep i hw hn hs hp =>
    obtain ⟨holder,hheld⟩ := h.held
    have hni : i ∉ s.waiting := fun hm => hs ((h.waiting i).mp hm)
    refine ⟨⟨setCall_calls h.toKept ⟨(h.calls i).quiet,hw⟩,⟨holder,hheld.setCall ?_⟩,?_,?_⟩,?_⟩
    · rw [hn]
      simp only [Call.holds,hw]
      rfl
    · intro j
      simp only [Gate.setPhase,List.mem_append,List.mem_singleton]
      by_cases hj : j = i
      · rw [hj,setCall_same]
        simp
      · rw [setCall_other hj,h.waiting]
        simp [hj]
    · rw [List.nodup_append]
      refine ⟨h.nodup,by simp,?_⟩
      rintro a ha b hb rfl
      exact hni (by simpa [List.mem_singleton.mp hb] using ha)
    · intro hfree
      exact absurd hp (by simpa [Gate.setPhase,Gate.setCall] using hfree)
  | take i hw hs hp =>
    obtain ⟨holder,hheld⟩ := h.held
    refine ⟨⟨setCall_calls h.toKept ⟨(h.calls i).quiet,hw⟩,⟨some i,rfl,fun j => ?_⟩,
      setCall_waiting h.toKept hs (by simp),h.nodup⟩,by simp⟩
    by_cases hj : j = i
    · subst hj
      simp only [Gate.setPhase,setCall_same]
      simp [Call.holds,Phase.holds]
    · simp only [Gate.setPhase,setCall_other hj,(hheld.free hp).2 j]
      simp [Ne.symm hj]
  | wake i timedOut hs hd =>
    obtain ⟨hk,hw⟩ := h.toKept.wakeUp timedOut hs hd
    exact ⟨hk,fun _ _ => hw⟩
  | release i chosen c t hc hh hn hs hs' ht =>
    obtain ⟨holder,hheld⟩ := h.held
    obtain rfl := (hheld.2 i).mp hh
    refine dropGuard_inv (s := s.setCall i c) (setCall_calls h.toKept hc)
      (setCall_waiting h.toKept hs hs') h.nodup (fun j => ?_) ht
    by_cases hj : j = i
    · rw [hj,setCall_same,hn]
    · rw [setCall_other hj,Bool.eq_false_iff,ne_eq,hheld.2 j]
      exact fun he => hj (Option.some.inj he).symm

theorem initial_inv : Inv ({} : Gate β) where
  calls _ := ⟨fun _ => rfl,rfl⟩
  held := ⟨none,rfl,fun i => by simp [Call.holds,Phase.holds,Worker.holds]⟩
  waiting := by simp
  nodup := List.nodup_nil
  roused := by simp

theorem run_inv (ls : List (Label β)) (hr : run step ls {} = some s) : Inv s :=
  run_invariant step Inv (fun _ l _ h hs => h.move (step_move h l hs)) ls {} s initial_inv hr

end Invariant

section Theorems

variable {s : Gate β}

def Launching (s : Gate β) (i : ℕ) : Prop := (s.calls i).worker = .launching

/-- However the calls interleave, at most one launch is under way, also after its caller has
given up; the flag is set exactly while a guard exists; a clear flag with sleeping calls
has a woken one; and a call ends with its own browser, its own error, or a timeout that
has passed. -/
theorem one_launch_at_a_time (ls : List (Label β)) (hr : run step ls {} = some s) :
    (∀ i j, (s.calls i).holds = true → (s.calls j).holds = true → i = j) ∧
    (∀ i j, Launching s i → Launching s j → i = j) ∧
    (s.inProgress = true ↔ ∃ i, (s.calls i).holds = true) ∧
    (s.inProgress = false → (∃ i, (s.calls i).phase = .sleeping) → Woken s) ∧
    (∀ i attempt, (s.calls i).phase = .returned attempt → Justified s.now (s.calls i) attempt) := by
  have h := run_inv ls hr
  obtain ⟨holder,hp,hh⟩ := h.held
  have hone : ∀ i j, (s.calls i).holds = true → (s.calls j).holds = true → i = j := by
    intro i j hi hj
    rw [hh] at hi hj
    exact Option.some.inj (hi.symm.trans hj)
  have hlaunch : ∀ i, Launching s i → (s.calls i).holds = true := by
    intro i hi
    simp only [Call.holds,show (s.calls i).worker = .launching from hi]
    simp [Worker.holds]
  refine ⟨hone,fun i j hi hj => hone i j (hlaunch i hi) (hlaunch j hj),?_,?_,?_⟩
  · rw [hp,Option.isSome_iff_exists]
    simp only [hh]
  · rintro hfree ⟨i,hi⟩
    exact h.roused hfree (List.ne_nil_of_mem ((h.waiting i).mpr hi))
  · intro i attempt hi
    simpa [Placed,hi] using (h.calls i).placed

/-- The first call gives up on a launch that hangs; the second waits until the launch has
ended after all, and takes the gate. -/
def hangingLaunch : List (Label ℕ) :=
  [.begin 0 10 10,.begin 1 60 60,.lock 0,.lock 1,.check 0,.spawn 0 none,.tick 10,.expire 0,
    .wake 1 false,.lock 1,.launched 0 (.ok 7),.release 0 1,.lock 1]

theorem one_launch_at_a_time_hanging : ∃ s, run step hangingLaunch {} = some s ∧
    ∀ i j, (s.calls i).holds = true → (s.calls j).holds = true → i = j := by
  obtain ⟨s,hs⟩ := Option.isSome_iff_exists.mp
    (show (run step hangingLaunch {}).isSome = true by decide)
  exact ⟨s,hs,(one_launch_at_a_time hangingLaunch hs).1⟩

/-- A step that the calls and their launch threads take by themselves: the start of a
call, the end of a launch and the clock are not among them. -/
def Label.isInternal : Label β → Bool
  | .tick _ | .begin _ _ _ | .launched _ _ | .wake _ _ | .expire _ => false
  | _ => true

/-- The program can go on, or it waits for a launch to end. -/
def Live (s : Gate β) : Prop :=
  (∃ j, Launching s j) ∨ ∃ l : Label β, l.isInternal = true ∧ (step s l).isSome = true

theorem dropGuard_enabled (s : Gate β) : ∃ chosen, (dropGuard s chosen).isSome = true := by
  cases hw : s.waiting with
  | nil => exact ⟨0,by simp [dropGuard,hw]⟩
  | cons i rest => exact ⟨i,by simp [dropGuard,hw]⟩

theorem live_of_lock {i : ℕ} (h : (s.calls i).phase = .locking ∨
    ∃ timedOut, (s.calls i).phase = .woken timedOut) : Live s := by
  refine Or.inr ⟨.lock i,rfl,?_⟩
  rcases h with hp | ⟨timedOut,hp⟩ <;> simp [step,hp]

theorem live_of_worker {i : ℕ} (hw : (s.calls i).worker.holds = true) : Live s := by
  cases hk : (s.calls i).worker with
  | launching => exact Or.inl ⟨i,hk⟩
  | releasing =>
    by_cases hp : ∃ attempt, (s.calls i).phase = .releasing attempt
    · obtain ⟨attempt,hp⟩ := hp
      obtain ⟨chosen,hd⟩ := dropGuard_enabled (s.setPhase i (.returned attempt))
      exact Or.inr ⟨.release i chosen,rfl,by simpa [step,hp] using hd⟩
    · obtain ⟨chosen,hd⟩ := dropGuard_enabled (s.setCall i { s.calls i with worker := .ended })
      refine Or.inr ⟨.release i chosen,rfl,?_⟩
      simp only [step,hk]
      split
      · rename_i attempt hp'
        exact absurd ⟨attempt,hp'⟩ hp
      · exact hd
      · exact absurd rfl ‹Worker.releasing = Worker.releasing → False›
  | absent | ended => simp [Worker.holds,hk] at hw

theorem live_of_holds {i : ℕ} (hh : (s.calls i).holds = true) : Live s := by
  rw [Call.holds,Bool.or_eq_true] at hh
  rcases hh with hp | hw
  · cases hk : (s.calls i).phase with
    | granted =>
      refine Or.inr ⟨.check i,rfl,?_⟩
      simp only [step,hk]
      split_ifs <;> rfl
    | spawning remaining => exact Or.inr ⟨.spawn i none,rfl,by simp [step,hk]⟩
    | releasing attempt =>
      obtain ⟨chosen,hd⟩ := dropGuard_enabled (s.setPhase i (.returned attempt))
      exact Or.inr ⟨.release i chosen,rfl,by simpa [step,hk] using hd⟩
    | _ => simp [Phase.holds,hk] at hp
  · exact live_of_worker hw

/-- A call that is under way waits for a running launch, or the program can go on by
itself: no interleaving leaves the gate stuck. -/
theorem gate_never_stuck (ls : List (Label β)) (hr : run step ls {} = some s) (i : ℕ)
    (hi : (s.calls i).phase ≠ .idle) (hn : ∀ attempt, (s.calls i).phase ≠ .returned attempt) :
    (∃ j, Launching s j) ∨ ∃ l : Label β, l.isInternal = true ∧ (step s l).isSome = true := by
  have h := run_inv ls hr
  cases hp : (s.calls i).phase with
  | idle => exact absurd hp hi
  | returned attempt => exact absurd hp (hn attempt)
  | locking => exact live_of_lock (Or.inl hp)
  | woken timedOut => exact live_of_lock (Or.inr ⟨timedOut,hp⟩)
  | granted | spawning | releasing =>
    exact live_of_holds (i := i) (by simp [Call.holds,Phase.holds,hp])
  | receiving expiry =>
    have hplaced := (h.calls i).placed
    simp only [Placed,hp] at hplaced
    cases hw : (s.calls i).worker with
    | absent => exact absurd hw hplaced.1
    | launching | releasing => exact live_of_worker (i := i) (by simp [Worker.holds,hw])
    | ended =>
      refine Or.inr ⟨.receive i,rfl,?_⟩
      cases hm : (s.calls i).message <;> simp [step,hp,hm,hw]
  | sleeping =>
    cases hb : s.inProgress with
    | true =>
      obtain ⟨holder,hheld,hh⟩ := h.held
      rw [hb] at hheld
      obtain ⟨j,rfl⟩ := Option.isSome_iff_exists.mp hheld.symm
      exact live_of_holds ((hh j).mpr rfl)
    | false =>
      obtain ⟨j,timedOut,hj⟩ := h.roused hb (List.ne_nil_of_mem ((h.waiting i).mpr hp))
      exact live_of_lock (Or.inr ⟨timedOut,hj⟩)

/-- With the launch hanging, the second call waits for nothing else. -/
theorem gate_never_stuck_hanging : ∃ s, run step (hangingLaunch.take 8) {} = some s ∧
    ((∃ j, Launching s j) ∨ ∃ l : Label ℕ, l.isInternal = true ∧ (step s l).isSome = true) := by
  obtain ⟨s,hs⟩ := Option.isSome_iff_exists.mp
    (show (run step (hangingLaunch.take 8) {}).isSome = true by decide)
  have hp : (s.calls 1).phase = .sleeping := by
    have hq : ((run step (hangingLaunch.take 8) {}).map (fun s => (s.calls 1).phase)) =
        some .sleeping := by decide
    simpa [hs] using hq
  exact ⟨s,hs,gate_never_stuck _ hs 1 (by simp [hp]) (by simp [hp])⟩

end Theorems

end YinShu.BrowserLaunch
