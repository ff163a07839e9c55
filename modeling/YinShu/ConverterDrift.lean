import YinShu.ConverterProcess

/-!
# What happens beside the supervising call

While the call of a converter waits, time passes, processes end and the pipes are
written, closed and read. None of this changes where the call is, and everything
that the call relies on stays true.
-/

set_option autoImplicit false

namespace YinShu.ConverterDrift
open YinShu.OfficeConversion YinShu.ConverterProcess

variable {converter : String} {timeout : ℕ} {hasCleanup : Bool} {s t : Supervision}

/-- What happens beside the call: time passes, processes end, the pipes are used. -/
structure Drift (s t : Supervision) : Prop where
  phase : t.phase = s.phase
  kills : t.kills = s.kills
  cleanups : t.cleanups = s.cleanups
  cleanupKilled : t.cleanupKilled = s.cleanupKilled
  started : t.started = s.started
  now : s.now ≤ t.now
  child : t.child = s.child ∨ s.child = .running ∧ ∃ status, t.child = .exited status
  cleanup : t.cleanup = s.cleanup ∨ s.cleanup = .running ∧ ∃ status, t.cleanup = .exited status
  readers : ∀ stream result, (s.pipe stream).reader = .finished result →
    (t.pipe stream).reader = .finished result

theorem Drift.child_unreaped (h : Drift s t) : t.child.unreaped = s.child.unreaped := by
  rcases h.child with h | ⟨hs,status,ht⟩
  · rw [h]
  · rw [hs,ht]
    rfl

theorem Drift.cleanup_unreaped (h : Drift s t) : t.cleanup.unreaped = s.cleanup.unreaped := by
  rcases h.cleanup with h | ⟨hs,status,ht⟩
  · rw [h]
  · rw [hs,ht]
    rfl

theorem Drift.child_settled (h : Drift s t) (hs : s.child.unreaped = false) :
    t.child = s.child := by
  rcases h.child with h | ⟨hr,-⟩
  · exact h
  · simp [hr,Process.unreaped] at hs

theorem Drift.untouched (h : Drift s t) (hs : s.Untouched) : t.Untouched := by
  refine ⟨h.kills.trans hs.1,h.cleanups.trans hs.2.1,?_⟩
  rcases h.cleanup with hc | ⟨hr,-⟩
  · exact hc.trans hs.2.2
  · rw [hs.2.2] at hr
    cases hr

theorem Drift.cleanedUp (h : Drift s t) (hs : s.CleanedUp timeout hasCleanup) :
    t.CleanedUp timeout hasCleanup := by
  refine ⟨?_,h.cleanups.trans hs.2.1,fun hc => ?_⟩
  · rw [h.started]
    exact hs.1.trans h.now
  · rw [h.cleanupKilled]
    exact hs.2.2 (h.cleanup_unreaped.symm.trans hc)

theorem Drift.childOver (h : Drift s t) (hs : s.ChildOver) : t.ChildOver := by
  intro hc
  rw [h.kills]
  exact hs (h.child_unreaped.symm.trans hc)

theorem Drift.answered (h : Drift s t) {reply : Reply}
    (hs : Answered converter timeout hasCleanup s reply) :
    Answered converter timeout hasCleanup t reply := by
  cases reply with
  | ok output =>
    obtain ⟨hchild,huntouched,hout,herr⟩ := hs
    have hsettled := h.child_settled (by rw [hchild]; rfl)
    exact ⟨hsettled.trans hchild,h.untouched huntouched,h.readers _ _ hout,h.readers _ _ herr⟩
  | error error =>
    have hother (hs : s.cleanups = 0 ∧ s.cleanup = .absent ∧ s.ChildOver) :
        t.cleanups = 0 ∧ t.cleanup = .absent ∧ t.ChildOver := by
      refine ⟨h.cleanups.trans hs.1,?_,h.childOver hs.2.2⟩
      rcases h.cleanup with hc | ⟨hr,-⟩
      · exact hc.trans hs.2.1
      · rw [hs.2.1] at hr
        cases hr
    cases error with
    | timedOut name seconds => exact ⟨hs.1,h.cleanedUp hs.2.1,h.childOver hs.2.2⟩
    | _ => exact hother hs

theorem Drift.placed (h : Drift s t) (hs : Placed converter timeout hasCleanup s) :
    Placed converter timeout hasCleanup t := by
  have hunreaped := h.child_unreaped
  have hdeadline : s.started+timeout ≤ s.now → t.started+timeout ≤ t.now := by
    intro hle
    rw [h.started]
    exact hle.trans h.now
  unfold Placed at hs ⊢
  rw [h.phase]
  cases hp : s.phase with
  | idle =>
    rw [hp] at hs
    exact ⟨(h.child_settled (by rw [hs.1]; rfl)).trans hs.1,h.untouched hs.2⟩
  | waiting deadline =>
    rw [hp] at hs
    exact ⟨hunreaped.trans hs.1,h.untouched hs.2.1,by rw [h.started]; exact hs.2.2⟩
  | cleanupStarting =>
    rw [hp] at hs
    exact ⟨hunreaped.trans hs.1,h.untouched hs.2.1,hs.2.2.1,hdeadline hs.2.2.2⟩
  | cleaning deadline =>
    rw [hp] at hs
    obtain ⟨hc,hk,hn,hu,hh,hd⟩ := hs
    exact ⟨hunreaped.trans hc,h.kills.trans hk,h.cleanups.trans hn,h.cleanup_unreaped.trans hu,
      hh,hdeadline hd⟩
  | grace deadline =>
    rw [hp] at hs
    obtain ⟨hc,hk,hcl,hd⟩ := hs
    exact ⟨hunreaped.trans hc,h.kills.trans hk,h.cleanedUp hcl,by rw [h.started]; exact hd⟩
  | killing =>
    rw [hp] at hs
    exact ⟨by rw [h.kills]; exact hs.1,hunreaped.trans hs.2.1,h.cleanedUp hs.2.2⟩
  | joiningStdout status =>
    rw [hp] at hs
    exact ⟨(h.child_settled (by rw [hs.1]; rfl)).trans hs.1,h.untouched hs.2⟩
  | joiningStderr status stdout =>
    rw [hp] at hs
    exact ⟨(h.child_settled (by rw [hs.1]; rfl)).trans hs.1,h.untouched hs.2.1,
      h.readers _ _ hs.2.2⟩
  | returned reply =>
    rw [hp] at hs
    exact h.answered hs
  | dropped =>
    rw [hp] at hs
    obtain ⟨hc,hcl,hn,hd⟩ := hs
    refine ⟨h.childOver hc,?_,by rw [h.cleanups]; exact hn,?_⟩
    · intro hu
      rw [h.cleanupKilled]
      exact hcl (h.cleanup_unreaped.symm.trans hu)
    · rw [h.cleanups]
      exact fun hpos => hdeadline (hd hpos)

theorem Drift.late (h : Drift s t) (hs : KillsLate timeout hasCleanup s) :
    KillsLate timeout hasCleanup t := by
  intro kill hkill hcause
  rw [h.kills] at hkill
  obtain ⟨hgrace,hnow,hcleanups⟩ := hs kill hkill hcause
  rw [h.started,h.cleanups]
  exact ⟨hgrace,hnow.trans h.now,hcleanups⟩

theorem pipe_step_sound {p q : Pipe} {event : PipeEvent} (hp : p.Sound)
    (h : p.step event = some q) : q.Sound := by
  unfold Pipe.Sound at hp
  cases event with
  | write bytes =>
    by_cases hclosed : p.closed = true
    · simp [Pipe.step,hclosed] at h
    · simp only [Pipe.step,hclosed] at h
      cases h
      unfold Pipe.Sound
      cases hr : p.reader with
      | reading taken =>
        rw [hr] at hp
        simp only [List.length_append]
        omega
      | finished result =>
        rw [hr] at hp
        cases result with
        | ok bytes => exact absurd hp.1 hclosed
        | error error => trivial
      | aborted => trivial
  | close =>
    by_cases hclosed : p.closed = true
    · simp [Pipe.step,hclosed] at h
    · simp only [Pipe.step,hclosed] at h
      cases h
      unfold Pipe.Sound
      cases hr : p.reader with
      | reading taken =>
        rw [hr] at hp
        exact hp
      | finished result =>
        rw [hr] at hp
        cases result with
        | ok bytes => exact absurd hp.1 hclosed
        | error error => trivial
      | aborted => trivial
  | read count =>
    cases hr : p.reader with
    | reading taken =>
      simp only [Pipe.step,hr] at h
      split at h
      · cases h
        assumption
      · cases h
    | _ => simp [Pipe.step,hr] at h
  | readEnd =>
    cases hr : p.reader with
    | reading taken =>
      simp only [Pipe.step,hr] at h
      split at h
      · case isTrue hend =>
        cases h
        exact ⟨hend.1,by rw [hend.2,List.take_length]⟩
      · cases h
    | _ => simp [Pipe.step,hr] at h
  | readFault error =>
    cases hr : p.reader with
    | reading taken =>
      simp only [Pipe.step,hr] at h
      cases h
      trivial
    | _ => simp [Pipe.step,hr] at h

/-- What a reader has delivered it keeps. -/
theorem pipe_step_finished {p q : Pipe} {event : PipeEvent}
    {result : Except String (List UInt8)} (hp : p.reader = .finished result)
    (h : p.step event = some q) : q.reader = .finished result := by
  cases event with
  | write bytes =>
    simp only [Pipe.step] at h
    split at h
    · cases h
    · cases h
      exact hp
  | close =>
    simp only [Pipe.step] at h
    split at h
    · cases h
    · cases h
      exact hp
  | _ => simp [Pipe.step,hp] at h

theorem inv_of_drift (h : Inv converter timeout hasCleanup s) (hd : Drift s t)
    (hsound : ∀ stream, (t.pipe stream).Sound) : Inv converter timeout hasCleanup t where
  placed := hd.placed h.placed
  late := hd.late h.late
  sound := hsound

theorem tick_drift (s : Supervision) (duration : ℕ) :
    Drift s { s with now := s.now+duration } where
  phase := rfl
  kills := rfl
  cleanups := rfl
  cleanupKilled := rfl
  started := rfl
  now := Nat.le_add_right _ _
  child := .inl rfl
  cleanup := .inl rfl
  readers _ _ h := h

theorem childExits_drift (hs : s.child = .running) (status : ExitStatus) :
    Drift s { s with child := .exited status } where
  phase := rfl
  kills := rfl
  cleanups := rfl
  cleanupKilled := rfl
  started := rfl
  now := Nat.le_refl _
  child := .inr ⟨hs,status,rfl⟩
  cleanup := .inl rfl
  readers _ _ h := h

theorem cleanupExits_drift (hs : s.cleanup = .running) (status : ExitStatus) :
    Drift s { s with cleanup := .exited status } where
  phase := rfl
  kills := rfl
  cleanups := rfl
  cleanupKilled := rfl
  started := rfl
  now := Nat.le_refl _
  child := .inl rfl
  cleanup := .inr ⟨hs,status,rfl⟩
  readers _ _ h := h

theorem onPipe_drift {stream : Stream} {event : PipeEvent} {pipe : Pipe}
    (h : (s.pipe stream).step event = some pipe) : Drift s (s.setPipe stream pipe) where
  phase := rfl
  kills := rfl
  cleanups := rfl
  cleanupKilled := rfl
  started := rfl
  now := Nat.le_refl _
  child := .inl rfl
  cleanup := .inl rfl
  readers other result hr := by
    by_cases hother : other = stream
    · subst hother
      simpa [Supervision.setPipe] using pipe_step_finished hr h
    · simpa [Supervision.setPipe,hother] using hr

theorem onPipe_sound {stream : Stream} {event : PipeEvent} {pipe : Pipe}
    (hs : ∀ stream, (s.pipe stream).Sound) (h : (s.pipe stream).step event = some pipe)
    (other : Stream) : ((s.setPipe stream pipe).pipe other).Sound := by
  by_cases hother : other = stream
  · subst hother
    simpa [Supervision.setPipe] using pipe_step_sound (hs other) h
  · simpa [Supervision.setPipe,hother] using hs other

end YinShu.ConverterDrift
