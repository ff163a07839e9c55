import YinShu.ConverterDrift

/-!
# What supervising a converter guarantees

Whatever the operating system does: the cleanup command runs at most once and only
after the timeout, the child is killed only after its time of grace, an output is
all that a child wrote which ended by itself, and when the call is over neither
process goes on without a kill.
-/

set_option autoImplicit false

namespace YinShu.ConverterSupervision
open YinShu.LabelledRun YinShu.OfficeConversion YinShu.ConverterProcess YinShu.ConverterDrift

variable {converter : String} {timeout : ℕ} {hasCleanup : Bool} {s t : Supervision}

@[simp] theorem finish_child (s : Supervision) (phase : Phase) :
    (s.finish phase).child = s.child := rfl

theorem finish_childOver (s : Supervision) (phase : Phase) : (s.finish phase).ChildOver := by
  intro h
  simp only [finish_child] at h
  simp [Supervision.finish,h]

theorem finish_cleanupOver (s : Supervision) (phase : Phase) : (s.finish phase).CleanupOver := by
  intro h
  change s.cleanup.unreaped = true at h
  simp [Supervision.finish,Supervision.dropCleanup,h]

theorem finish_reaped {status : ExitStatus} (phase : Phase) (h : s.child = .reaped status) :
    (s.finish phase).kills = s.kills := by
  simp [Supervision.finish,h,Process.unreaped]

theorem finish_late (hs : KillsLate timeout hasCleanup s) (phase : Phase) :
    KillsLate timeout hasCleanup (s.finish phase) := by
  intro kill hkill hcause
  unfold Supervision.finish at hkill
  split at hkill
  · rcases List.mem_append.mp hkill with hold | hnew
    · exact hs kill hold hcause
    · rw [List.mem_singleton.mp hnew] at hcause
      cases hcause
  · exact hs kill hkill hcause

theorem finish_cleanedUp (hs : s.started+timeout ≤ s.now) (hn : s.cleanups = hasCleanup.toNat)
    (phase : Phase) : (s.finish phase).CleanedUp timeout hasCleanup :=
  ⟨hs,hn,finish_cleanupOver s phase⟩

theorem abort_sound {p : Pipe} (h : p.Sound) :
    Pipe.Sound { p with reader := p.reader.abort } := by
  unfold Pipe.Sound at h ⊢
  cases hr : p.reader with
  | reading taken => trivial
  | finished result =>
    rw [hr] at h
    exact h
  | aborted => trivial

/-- A call that ends with an error of the system has not reached the timeout. -/
theorem untouched_io (hs : s.cleanups = 0 ∧ s.cleanup = .absent) (error : String) :
    Placed converter timeout hasCleanup (s.finish (.returned (.error (.io error)))) :=
  ⟨hs.1,hs.2,finish_childOver s _⟩

theorem spawn_inv (h : Inv converter timeout hasCleanup s) (hp : s.phase = .idle)
    (error : Option SpawnError) :
    Inv converter timeout hasCleanup (spawned converter timeout s error) := by
  have hplaced := h.placed
  unfold Placed at hplaced
  rw [hp] at hplaced
  obtain ⟨-,hkills,hcleanups,hcleanup⟩ := hplaced
  cases error with
  | none =>
    refine ⟨⟨rfl,⟨hkills,hcleanups,hcleanup⟩,rfl⟩,fun kill hkill => ?_,h.sound⟩
    change kill ∈ s.kills at hkill
    simp [hkills] at hkill
  | some error =>
    cases error with
    | notFound =>
      exact ⟨⟨hcleanups,hcleanup,finish_childOver s _⟩,finish_late h.late _,h.sound⟩
    | other error => exact ⟨untouched_io ⟨hcleanups,hcleanup⟩ error,finish_late h.late _,h.sound⟩

theorem timedOut_inv (h : Inv converter timeout hasCleanup s)
    (hs : s.started+timeout ≤ s.now ∧ s.cleanups = hasCleanup.toNat) (child : Process) :
    Inv converter timeout hasCleanup (Supervision.finish { s.abortReaders with child := child }
      (.returned (timedOut converter timeout))) where
  placed := ⟨rfl,finish_cleanedUp (s := { s.abortReaders with child := child }) hs.1 hs.2 _,
    finish_childOver _ _⟩
  late := finish_late (s := { s.abortReaders with child := child }) h.late _
  sound stream := abort_sound (h.sound stream)

theorem waited_inv (h : Inv converter timeout hasCleanup s) {status : ExitStatus}
    (ht : childWaited converter timeout s status = some t) :
    Inv converter timeout hasCleanup t := by
  have hplaced := h.placed
  unfold Placed at hplaced
  unfold childWaited at ht
  cases hp : s.phase with
  | waiting deadline =>
    rw [hp] at hplaced ht
    cases ht
    exact ⟨⟨rfl,hplaced.2.1⟩,h.late,h.sound⟩
  | grace deadline =>
    rw [hp] at hplaced ht
    cases ht
    exact timedOut_inv h ⟨hplaced.2.2.1.1,hplaced.2.2.1.2.1⟩ _
  | killing =>
    rw [hp] at hplaced ht
    cases ht
    exact timedOut_inv h ⟨hplaced.2.2.1,hplaced.2.2.2.1⟩ _
  | _ => simp [hp] at ht

theorem late_of_no_kills (h : s.kills = []) : KillsLate timeout hasCleanup s := by
  intro kill hkill
  simp [h] at hkill

theorem giveGrace_inv (hsound : ∀ stream, (s.pipe stream).Sound)
    (hchild : s.child.unreaped = true) (hkills : s.kills = [])
    (hs : s.CleanedUp timeout hasCleanup) : Inv converter timeout hasCleanup s.giveGrace where
  placed := ⟨hchild,hkills,hs,Nat.add_le_add_right hs.1 _⟩
  late := late_of_no_kills hkills
  sound := hsound

/-- Where the cleanup command is given up, its handle has been dropped. -/
theorem cleaning_given_up (h : Inv converter timeout hasCleanup s) {deadline : ℕ}
    (hp : s.phase = .cleaning deadline) :
    Inv converter timeout hasCleanup s.dropCleanup.giveGrace := by
  have hplaced := h.placed
  unfold Placed at hplaced
  rw [hp] at hplaced
  obtain ⟨hchild,hkills,hn,-,hhas,hdeadline⟩ := hplaced
  apply giveGrace_inv (s := s.dropCleanup) h.sound hchild hkills
  refine ⟨hdeadline,by rw [hhas]; exact hn,fun hu => ?_⟩
  change s.cleanup.unreaped = true at hu
  simp [Supervision.dropCleanup,hu]

theorem elapsed_inv (h : Inv converter timeout hasCleanup s)
    (ht : timerElapsed hasCleanup s = some t) : Inv converter timeout hasCleanup t := by
  have hplaced := h.placed
  unfold Placed at hplaced
  unfold timerElapsed at ht
  cases hp : s.phase with
  | waiting deadline =>
    rw [hp] at hplaced ht
    obtain ⟨hchild,⟨hkills,hn,hcleanup⟩,rfl⟩ := hplaced
    by_cases hready : s.started+timeout ≤ s.now ∧ s.child = .running
    · dsimp only at ht
      rw [if_pos hready] at ht
      cases hasCleanup with
      | true =>
        cases ht
        exact ⟨⟨hchild,⟨hkills,hn,hcleanup⟩,rfl,hready.1⟩,late_of_no_kills hkills,h.sound⟩
      | false =>
        cases ht
        exact giveGrace_inv h.sound hchild hkills
          ⟨hready.1,hn,fun hu => by simp [hcleanup,Process.unreaped] at hu⟩
    · simp [hready] at ht
  | cleaning deadline =>
    simp only [hp] at ht
    split at ht
    · cases ht
      exact cleaning_given_up h hp
    · cases ht
  | grace deadline =>
    rw [hp] at hplaced ht
    obtain ⟨hchild,hkills,hclean,hgrace⟩ := hplaced
    by_cases hready : deadline ≤ s.now ∧ s.child = .running
    · dsimp only at ht
      rw [if_pos hready] at ht
      cases ht
      refine ⟨⟨by simp,hchild,hclean⟩,fun kill hkill _ => ?_,h.sound⟩
      have hnew : kill = ⟨.graceOver,s.now⟩ := by simpa [hkills] using hkill
      rw [hnew]
      exact ⟨hgrace.trans hready.1,Nat.le_refl _,hclean.2.1⟩
    · simp [hready] at ht
  | _ => simp [hp] at ht

theorem cleanupSpawned_inv (h : Inv converter timeout hasCleanup s)
    (hp : s.phase = .cleanupStarting) (error : Bool) :
    Inv converter timeout hasCleanup (if error then { s with cleanups := s.cleanups+1 }.giveGrace
      else { s with
        phase := .cleaning (s.now+timeoutCleanupTimeout), cleanup := .running,
        cleanups := s.cleanups+1 }) := by
  have hplaced := h.placed
  unfold Placed at hplaced
  rw [hp] at hplaced
  obtain ⟨hchild,⟨hkills,hn,hcleanup⟩,hhas,hdeadline⟩ := hplaced
  cases error with
  | true =>
    apply giveGrace_inv (s := { s with cleanups := s.cleanups+1 }) h.sound hchild hkills
    refine ⟨hdeadline,by simp [hn,hhas],fun hu => ?_⟩
    simp [hcleanup,Process.unreaped] at hu
  | false =>
    exact ⟨⟨hchild,hkills,by simp [hn],rfl,hhas,hdeadline⟩,late_of_no_kills hkills,h.sound⟩

theorem cleanupWaited_inv (h : Inv converter timeout hasCleanup s) {deadline : ℕ}
    (hp : s.phase = .cleaning deadline) (status : ExitStatus) :
    Inv converter timeout hasCleanup { s with cleanup := .reaped status }.giveGrace := by
  have hplaced := h.placed
  unfold Placed at hplaced
  rw [hp] at hplaced
  obtain ⟨hchild,hkills,hn,-,hhas,hdeadline⟩ := hplaced
  apply giveGrace_inv (s := { s with cleanup := .reaped status }) h.sound hchild hkills
  exact ⟨hdeadline,by rw [hhas]; exact hn,fun hu => by simp [Process.unreaped] at hu⟩

theorem joined_inv (h : Inv converter timeout hasCleanup s) (ht : joined s = some t) :
    Inv converter timeout hasCleanup t := by
  have hplaced := h.placed
  unfold Placed at hplaced
  unfold joined at ht
  cases hp : s.phase with
  | joiningStdout status =>
    rw [hp] at hplaced ht
    obtain ⟨hchild,hkills,hn,hcleanup⟩ := hplaced
    cases hr : (s.pipe .stdout).reader with
    | finished result =>
      cases result with
      | ok stdout =>
        simp only [hr] at ht
        cases ht
        exact ⟨⟨hchild,⟨hkills,hn,hcleanup⟩,hr⟩,late_of_no_kills hkills,h.sound⟩
      | error error =>
        simp only [hr] at ht
        cases ht
        exact ⟨untouched_io ⟨hn,hcleanup⟩ error,finish_late h.late _,h.sound⟩
    | _ => simp [hr] at ht
  | joiningStderr status stdout =>
    rw [hp] at hplaced ht
    obtain ⟨hchild,⟨hkills,hn,hcleanup⟩,hout⟩ := hplaced
    cases hr : (s.pipe .stderr).reader with
    | finished result =>
      cases result with
      | ok stderr =>
        simp only [hr] at ht
        cases ht
        exact ⟨⟨hchild,⟨(finish_reaped _ hchild).trans hkills,hn,hcleanup⟩,hout,hr⟩,
          finish_late h.late _,h.sound⟩
      | error error =>
        simp only [hr] at ht
        cases ht
        exact ⟨untouched_io ⟨hn,hcleanup⟩ error,finish_late h.late _,h.sound⟩
    | _ => simp [hr] at ht
  | _ => simp [hp] at ht

/-- The cleanup command was tried at most once, and only after the timeout. -/
theorem cleanups_late (h : Inv converter timeout hasCleanup s) :
    s.cleanups ≤ hasCleanup.toNat ∧ (0 < s.cleanups → s.started+timeout ≤ s.now) := by
  have hplaced := h.placed
  have hnone (hn : s.cleanups = 0) :
      s.cleanups ≤ hasCleanup.toNat ∧ (0 < s.cleanups → s.started+timeout ≤ s.now) := by
    simp [hn]
  have hclean (hs : s.CleanedUp timeout hasCleanup) :
      s.cleanups ≤ hasCleanup.toNat ∧ (0 < s.cleanups → s.started+timeout ≤ s.now) :=
    ⟨hs.2.1.le,fun _ => hs.1⟩
  unfold Placed at hplaced
  cases hp : s.phase with
  | idle =>
    rw [hp] at hplaced
    exact hnone hplaced.2.2.1
  | waiting deadline =>
    rw [hp] at hplaced
    exact hnone hplaced.2.1.2.1
  | cleanupStarting =>
    rw [hp] at hplaced
    exact hnone hplaced.2.1.2.1
  | cleaning deadline =>
    rw [hp] at hplaced
    obtain ⟨-,-,hn,-,hhas,hdeadline⟩ := hplaced
    exact ⟨by simp [hn,hhas],fun _ => hdeadline⟩
  | grace deadline =>
    rw [hp] at hplaced
    exact hclean hplaced.2.2.1
  | killing =>
    rw [hp] at hplaced
    exact hclean hplaced.2.2
  | joiningStdout status =>
    rw [hp] at hplaced
    exact hnone hplaced.2.2.1
  | joiningStderr status stdout =>
    rw [hp] at hplaced
    exact hnone hplaced.2.1.2.1
  | returned reply =>
    rw [hp] at hplaced
    cases reply with
    | ok output => exact hnone hplaced.2.1.2.1
    | error error =>
      cases error with
      | timedOut name seconds => exact hclean hplaced.2.1
      | _ => exact hnone hplaced.1
  | dropped =>
    rw [hp] at hplaced
    exact hplaced.2.2

theorem abandon_inv (h : Inv converter timeout hasCleanup s) :
    Inv converter timeout hasCleanup (s.finish .dropped) := by
  have hlate := cleanups_late h
  exact ⟨⟨finish_childOver s _,finish_cleanupOver s _,hlate⟩,finish_late h.late _,h.sound⟩

theorem waitFault_inv (h : Inv converter timeout hasCleanup s) {error : String}
    (ht : step converter timeout hasCleanup s (.waitFault error) = some t) :
    Inv converter timeout hasCleanup t := by
  have hplaced := h.placed
  unfold Placed at hplaced
  cases hp : s.phase with
  | waiting deadline =>
    rw [hp] at hplaced
    simp only [step,hp] at ht
    cases ht
    exact ⟨untouched_io hplaced.2.1.2 error,finish_late h.late _,h.sound⟩
  | grace deadline =>
    rw [hp] at hplaced
    simp only [step,hp] at ht
    cases ht
    exact timedOut_inv h ⟨hplaced.2.2.1.1,hplaced.2.2.1.2.1⟩ s.child
  | killing =>
    rw [hp] at hplaced
    simp only [step,hp] at ht
    cases ht
    exact timedOut_inv h ⟨hplaced.2.2.1,hplaced.2.2.2.1⟩ s.child
  | _ => simp [step,hp] at ht

theorem step_inv (s : Supervision) (l : Label) (t : Supervision)
    (h : Inv converter timeout hasCleanup s) (ht : step converter timeout hasCleanup s l = some t) :
    Inv converter timeout hasCleanup t := by
  cases l with
  | tick duration =>
    cases ht
    exact inv_of_drift h (tick_drift s duration) h.sound
  | spawn error =>
    cases hp : s.phase <;> simp only [step,hp] at ht <;> cases ht
    exact spawn_inv h hp error
  | childExits status =>
    cases hc : s.child <;> simp only [step,hc] at ht <;> cases ht
    exact inv_of_drift h (childExits_drift hc status) h.sound
  | cleanupExits status =>
    cases hc : s.cleanup <;> simp only [step,hc] at ht <;> cases ht
    exact inv_of_drift h (cleanupExits_drift hc status) h.sound
  | onPipe stream event =>
    have hpipe : ((s.pipe stream).step event).map (s.setPipe stream) = some t := by
      cases hc : s.child <;> simp only [step,hc] at ht
      · cases ht
      all_goals exact ht
    obtain ⟨pipe,hstep,rfl⟩ := Option.map_eq_some_iff.mp hpipe
    exact inv_of_drift h (onPipe_drift hstep) (onPipe_sound h.sound hstep)
  | waited =>
    cases hc : s.child <;> simp only [step,hc] at ht
    case exited status => exact waited_inv h ht
    all_goals cases ht
  | waitFault error => exact waitFault_inv h ht
  | elapsed => exact elapsed_inv h ht
  | cleanupSpawned error =>
    cases hp : s.phase <;> simp only [step,hp] at ht <;> cases ht
    exact cleanupSpawned_inv h hp error
  | cleanupWaited =>
    cases hp : s.phase <;> cases hc : s.cleanup <;> simp only [step,hp,hc] at ht <;> cases ht
    exact cleanupWaited_inv h hp _
  | cleanupFault =>
    cases hp : s.phase <;> simp only [step,hp] at ht <;> cases ht
    exact cleaning_given_up h hp
  | join => exact joined_inv h ht
  | abandon =>
    simp only [step] at ht
    split at ht
    · cases ht
      exact abandon_inv h
    · cases ht

theorem initial_inv : Inv converter timeout hasCleanup {} where
  placed := ⟨rfl,rfl,rfl,rfl⟩
  late := late_of_no_kills rfl
  sound _ := Nat.zero_le _

/-- Neither process is left to run on by itself. -/
theorem ended_over (h : Placed converter timeout hasCleanup s) (hidle : s.phase ≠ .idle)
    (hended : s.phase.active = false) : s.ChildOver ∧ s.CleanupOver := by
  unfold Placed at h
  have hsettled {process : Process} (hp : process.unreaped = false) {P : Prop} :
      process.unreaped = true → P := fun hu => absurd (hu.symm.trans hp) (by simp)
  cases hp : s.phase with
  | idle => exact absurd hp hidle
  | returned reply =>
    rw [hp] at h
    cases reply with
    | ok output =>
      exact ⟨hsettled (by rw [h.1]; rfl),hsettled (by rw [h.2.1.2.2]; rfl)⟩
    | error error =>
      cases error with
      | timedOut name seconds => exact ⟨h.2.2,h.2.1.2.2⟩
      | _ => exact ⟨h.2.2,hsettled (by rw [h.2.1]; rfl)⟩
  | dropped =>
    rw [hp] at h
    exact ⟨h.1,h.2.1⟩
  | _ => simp [hp,Phase.active] at hended

variable (converter timeout hasCleanup)

structure Supervised (s : Supervision) : Prop where
  oneCleanup : s.cleanups ≤ hasCleanup.toNat ∧ (0 < s.cleanups → s.started+timeout ≤ s.now)
  lateKills : ∀ kill ∈ s.kills, kill.cause = .graceOver →
    s.started+timeout+converterExitGrace ≤ kill.time ∧ s.cleanups = hasCleanup.toNat
  nothingLeft : s.phase ≠ .idle → s.phase.active = false → s.ChildOver ∧ s.CleanupOver
  wholeOutput : ∀ output, s.phase = .returned (.ok output) →
    s.child = .reaped output.status ∧ s.kills = [] ∧ s.cleanups = 0 ∧
      (∀ stream, (s.pipe stream).closed = true) ∧
      output.stdout = (s.pipe .stdout).written ∧ output.stderr = (s.pipe .stderr).written
  timeouts : ∀ name seconds, s.phase = .returned (.error (.timedOut name seconds)) →
    .error (.timedOut name seconds) = timedOut converter timeout ∧
      s.started+timeout ≤ s.now ∧ s.cleanups = hasCleanup.toNat

/-- Whatever the processes, the pipes and the clock do, a converter is supervised. -/
theorem converter_supervised (ls : List Label) (s : Supervision)
    (h : run (step converter timeout hasCleanup) ls {} = some s) :
    Supervised converter timeout hasCleanup s := by
  have hinv := run_invariant (step converter timeout hasCleanup) (Inv converter timeout hasCleanup)
    step_inv ls {} s initial_inv h
  have hplaced := hinv.placed
  refine ⟨cleanups_late hinv,fun kill hk hc => ?_,ended_over hplaced,fun output hp => ?_,
    fun name seconds hp => ?_⟩
  · obtain ⟨hgrace,-,hcleanups⟩ := hinv.late kill hk hc
    exact ⟨hgrace,hcleanups⟩
  · unfold Placed at hplaced
    rw [hp] at hplaced
    obtain ⟨hchild,⟨hkills,hn,-⟩,hout,herr⟩ := hplaced
    have hstdout := hinv.sound .stdout
    have hstderr := hinv.sound .stderr
    unfold Pipe.Sound at hstdout hstderr
    rw [hout] at hstdout
    rw [herr] at hstderr
    refine ⟨hchild,hkills,hn,fun stream => ?_,hstdout.2,hstderr.2⟩
    cases stream with
    | stdout => exact hstdout.1
    | stderr => exact hstderr.1
  · unfold Placed at hplaced
    rw [hp] at hplaced
    exact ⟨hplaced.1,hplaced.2.1.1,hplaced.2.1.2.1⟩

/-- A child that does not leave although a cleanup was tried is killed and reaped. -/
def stubbornChild : List Label :=
  [.spawn none,.onPipe .stdout (.write [1,2]),.tick 120000,.elapsed,.cleanupSpawned false,
    .tick 1000,.cleanupExits ⟨some 0⟩,.cleanupWaited,.tick 5000,.elapsed,.childExits ⟨none⟩,.waited]

theorem converter_supervised_stubborn :
    ∃ s, run (step "Microsoft Word" 120000 true) stubbornChild {} = some s ∧
      s.kills = [⟨.graceOver,126000⟩] ∧ s.child = .reaped ⟨none⟩ ∧
      Supervised "Microsoft Word" 120000 true s :=
  ⟨_,rfl,rfl,rfl,converter_supervised "Microsoft Word" 120000 true stubbornChild _ rfl⟩

end YinShu.ConverterSupervision
