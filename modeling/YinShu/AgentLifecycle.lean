import Mathlib.Logic.Function.Basic
import YinShu.LabelledRun

/-!
# Starting and stopping agents in one runtime directory

Every agent of a directory uses the same socket path, while a start looks only
at the TCP port that is configured at that moment. The machine runs any number
of runtimes, each start and each shutdown in the separate steps in which the
code takes them, beside saved port changes and listeners of other programs.
-/

set_option autoImplicit false

namespace YinShu.AgentLifecycle
open YinShu.LabelledRun

/-- The IPC task during a shutdown. -/
inductive IpcTask where
  | serving
  | dropped
  | finished
  deriving DecidableEq, Repr

/-- Where a runtime stands between `build` and the end of its last task. -/
inductive Phase where
  | absent
  | built (port : UInt16)
  | probed (port : UInt16)
  | listening (addr : UInt16)
  | cleared (addr : UInt16)
  | bound (addr : UInt16)
  | running (addr : UInt16)
  | stopping (addr : UInt16) (tcp : Bool) (ipc : IpcTask)
  | ended
  deriving DecidableEq, Repr

inductive Listener where
  | agent (i : ℕ)
  | other
  deriving DecidableEq, Repr

/-- The host: the port in the saved configuration, the TCP listeners, the runtime
whose socket file is at the path, and the runtimes. -/
structure Host where
  savedPort : UInt16
  tcp : UInt16 → Option Listener := fun _ => none
  socket : Option ℕ := none
  phase : ℕ → Phase := fun _ => .absent

/-- `configure` is a save through the state of a runtime that has not started yet;
`fail` is an error of the operating system on the way of a start. -/
inductive Label where
  | savePort (port : UInt16)
  | foreign (port : UInt16) (opens : Bool)
  | build (i : ℕ)
  | configure (i : ℕ) (port : UInt16)
  | probe (i : ℕ)
  | bindTcp (i : ℕ) (chosen : UInt16)
  | clearSocket (i : ℕ)
  | bindSocket (i : ℕ)
  | setPermissions (i : ℕ)
  | fail (i : ℕ)
  | cancel (i : ℕ)
  | closeTcp (i : ℕ)
  | closeIpc (i : ℕ)
  | removeSocket (i : ℕ) (removed : Bool)
  | crash (i : ℕ)
  deriving DecidableEq, Repr

/-- The TCP port that the runtime listens on. -/
def Phase.addr : Phase → Option UInt16
  | .listening addr | .cleared addr | .bound addr | .running addr | .stopping addr true _ =>
    some addr
  | _ => none

/-- The runtime has its port and may still touch the socket path. -/
def Phase.holds : Phase → Bool
  | .listening _ | .cleared _ | .bound _ | .running _ => true
  | .stopping _ _ ipc => ipc ≠ .finished
  | _ => false

/-- The runtime listens on the socket that it bound. -/
def Phase.listensIpc : Phase → Bool
  | .bound _ | .running _ | .stopping _ _ .serving => true
  | _ => false

/-- The socket file of the runtime is left without a listener. -/
def Phase.gone : Phase → Bool
  | .ended => true
  | .stopping _ _ ipc => ipc ≠ .serving
  | _ => false

def Phase.isRunning : Phase → Bool
  | .running _ => true
  | _ => false

def Phase.isStarting : Phase → Bool
  | .probed _ | .listening _ | .cleared _ | .bound _ => true
  | _ => false

def Host.setPhase (s : Host) (i : ℕ) (phase : Phase) : Host :=
  { s with phase := Function.update s.phase i phase }

def Host.setTcp (s : Host) (port : UInt16) (listener : Option Listener) : Host :=
  { s with tcp := Function.update s.tcp port listener }

/-- The process lets go of its listeners; a socket file stays where it is. -/
def Host.drop (s : Host) (i : ℕ) : Host :=
  match (s.phase i).addr with
  | none => s.setPhase i .ended
  | some addr => (s.setTcp addr none).setPhase i .ended

/-- The port that `bind` gives for a configured one; the system chooses for zero. -/
def Assigned (port chosen : UInt16) : Prop := chosen ≠ 0 ∧ (port = 0 ∨ chosen = port)

instance assignedDecidable (port chosen : UInt16) : Decidable (Assigned port chosen) :=
  inferInstanceAs (Decidable (chosen ≠ 0 ∧ (port = 0 ∨ chosen = port)))

def step (s : Host) : Label → Option Host
  | .savePort port => some { s with savedPort := port }
  | .foreign port true =>
    if port ≠ 0 ∧ s.tcp port = none then some (s.setTcp port (some .other)) else none
  | .foreign port false =>
    if s.tcp port = some .other then some (s.setTcp port none) else none
  | .build i =>
    match s.phase i with
    | .absent => some (s.setPhase i (.built s.savedPort))
    | _ => none
  | .configure i port =>
    match s.phase i with
    | .built _ => some (Host.setPhase { s with savedPort := port } i (.built port))
    | _ => none
  | .probe i =>
    match s.phase i with
    | .built port =>
      if (s.tcp port).isSome then some (s.setPhase i .ended)
      else some (s.setPhase i (.probed port))
    | _ => none
  | .bindTcp i chosen =>
    match s.phase i with
    | .probed port =>
      if ¬Assigned port chosen then none
      else if (s.tcp chosen).isSome then some (s.setPhase i .ended)
      else some ((s.setTcp chosen (some (.agent i))).setPhase i (.listening chosen))
    | _ => none
  | .clearSocket i =>
    match s.phase i with
    | .listening addr => some (Host.setPhase { s with socket := none } i (.cleared addr))
    | _ => none
  | .bindSocket i =>
    match s.phase i with
    | .cleared addr =>
      if s.socket.isSome then some (s.drop i)
      else some (Host.setPhase { s with socket := some i } i (.bound addr))
    | _ => none
  | .setPermissions i =>
    match s.phase i with
    | .bound addr => some (s.setPhase i (.running addr))
    | _ => none
  | .fail i => if (s.phase i).isStarting then some (s.drop i) else none
  | .cancel i =>
    match s.phase i with
    | .running addr => some (s.setPhase i (.stopping addr true .serving))
    | _ => none
  | .closeTcp i =>
    match s.phase i with
    | .stopping addr true ipc => some ((s.setTcp addr none).setPhase i (.stopping addr false ipc))
    | _ => none
  | .closeIpc i =>
    match s.phase i with
    | .stopping addr tcp .serving => some (s.setPhase i (.stopping addr tcp .dropped))
    | _ => none
  | .removeSocket i removed =>
    match s.phase i with
    | .stopping addr tcp .dropped => some (Host.setPhase
        { s with socket := if removed then none else s.socket } i (.stopping addr tcp .finished))
    | _ => none
  | .crash i =>
    match s.phase i with
    | .absent | .ended => none
    | _ => some (s.drop i)

def Label.actor : Label → Option ℕ
  | .savePort _ | .foreign _ _ => none
  | .build i | .configure i _ | .probe i | .bindTcp i _ | .clearSocket i | .bindSocket i
  | .setPermissions i | .fail i | .cancel i | .closeTcp i | .closeIpc i | .removeSocket i _
  | .crash i => some i

/-- The steps of `AgentRuntime::start`. -/
def Label.isStart : Label → Bool
  | .probe _ | .bindTcp _ _ | .clearSocket _ | .bindSocket _ | .setPermissions _ | .fail _ => true
  | _ => false

def initial (savedPort : UInt16) : Host where
  savedPort := savedPort

/-- A connection to the socket path reaches the runtime. -/
def Reachable (s : Host) (j : ℕ) : Prop :=
  s.socket = some j ∧ (s.phase j).listensIpc = true

instance reachableDecidable (s : Host) (j : ℕ) : Decidable (Reachable s j) :=
  inferInstanceAs (Decidable (s.socket = some j ∧ (s.phase j).listensIpc = true))

/-- A start looks at its port while no other runtime holds the path, or finds the port
taken. -/
def PortDecides (s : Host) (i : ℕ) (port : UInt16) : Prop :=
  (∀ j, j ≠ i → (s.phase j).holds = false) ∨ (s.tcp port).isSome = true

def Exclusive (s : Host) : Label → Prop
  | .probe i => ∀ port, s.phase i = .built port → PortDecides s i port
  | .bindTcp i chosen => PortDecides s i chosen
  | _ => True

/-- At most one runtime holds the path, and the socket of one that has bound it and is
not shutting down is there. -/
structure Inv (s : Host) : Prop where
  unique : ∀ i j, (s.phase i).holds = true → (s.phase j).holds = true → i = j
  owned : ∀ j addr, s.phase j = .bound addr ∨ s.phase j = .running addr → s.socket = some j

section Steps

variable {s t : Host} {l : Label} {i : ℕ}

@[simp] theorem setPhase_self (phase : Phase) : (s.setPhase i phase).phase i = phase := by
  simp [Host.setPhase]

@[simp] theorem setPhase_socket (phase : Phase) : (s.setPhase i phase).socket = s.socket := rfl

theorem setPhase_other {j : ℕ} (hj : j ≠ i) (phase : Phase) :
    (s.setPhase i phase).phase j = s.phase j := by
  simp [Host.setPhase,hj]

theorem drop_eq : ∃ tcp, s.drop i = Host.setPhase { s with tcp := tcp } i .ended := by
  unfold Host.drop
  split
  · exact ⟨s.tcp,rfl⟩
  · exact ⟨_,rfl⟩

/-- A step of a runtime changes its own phase; it comes to hold the path by binding a
free port, and touches the path only while it holds it. -/
structure Move (s : Host) (l : Label) (i : ℕ) (t : Host) : Prop where
  frame : ∀ j, j ≠ i → t.phase j = s.phase j
  holds : (t.phase i).holds = true → (s.phase i).holds = true ∨
    ∃ chosen, l = .bindTcp i chosen ∧ (s.tcp chosen).isSome = false
  socket : t.socket = s.socket ∨ (s.phase i).holds = true ∧ (t.socket = none ∨
    t.socket = some i ∧ (t.phase i).listensIpc = true)
  owned : ∀ addr, t.phase i = .bound addr ∨ t.phase i = .running addr →
    t.socket = some i ∨ s.phase i = .bound addr ∧ t.socket = s.socket
  kept : (s.phase i).listensIpc = true ∨ (s.phase i).gone = true →
    (t.phase i).listensIpc = true ∨ (t.phase i).gone = true

theorem Move.setPhase {phase : Phase} (host : Host) (hp : host.phase = s.phase)
    (hh : phase.holds = true → (s.phase i).holds = true ∨
      ∃ chosen, l = .bindTcp i chosen ∧ (s.tcp chosen).isSome = false)
    (hk : host.socket = s.socket ∨ (s.phase i).holds = true ∧ (host.socket = none ∨
      host.socket = some i ∧ phase.listensIpc = true))
    (ho : ∀ addr, phase = .bound addr ∨ phase = .running addr →
      host.socket = some i ∨ s.phase i = .bound addr ∧ host.socket = s.socket)
    (hl : (s.phase i).listensIpc = true ∨ (s.phase i).gone = true →
      phase.listensIpc = true ∨ phase.gone = true) :
    Move s l i (host.setPhase i phase) where
  frame j hj := by rw [setPhase_other hj,hp]
  holds := by simpa using hh
  socket := by simpa using hk
  owned := by simpa using ho
  kept := by simpa using hl

theorem move_drop : Move s l i (s.drop i) := by
  obtain ⟨tcp,he⟩ := drop_eq (s := s) (i := i)
  rw [he]
  exact Move.setPhase _ rfl (by simp [Phase.holds]) (Or.inl rfl) (by simp)
    (fun _ => Or.inr rfl)

theorem step_move (hs : step s l = some t) :
    (l.actor = none ∧ t.phase = s.phase ∧ t.socket = s.socket) ∨
      ∃ i, l.actor = some i ∧ Move s l i t := by
  cases l with
  | savePort port =>
    cases hs
    exact Or.inl ⟨rfl,rfl,rfl⟩
  | foreign port opens =>
    cases opens <;> simp only [step, Option.ite_none_right_eq_some, Option.some.injEq] at hs <;>
      exact Or.inl ⟨rfl,hs.2 ▸ rfl,hs.2 ▸ rfl⟩
  | build i =>
    refine Or.inr ⟨i,rfl,?_⟩
    simp only [step] at hs
    split at hs
    · rename_i hp
      cases hs
      exact Move.setPhase s rfl (by simp [Phase.holds]) (Or.inl rfl) (by simp)
        (by simp [hp,Phase.listensIpc,Phase.gone])
    · cases hs
  | configure i port =>
    refine Or.inr ⟨i,rfl,?_⟩
    simp only [step] at hs
    split at hs
    · rename_i old hp
      cases hs
      exact Move.setPhase _ rfl (by simp [Phase.holds]) (Or.inl rfl) (by simp)
        (by simp [hp,Phase.listensIpc,Phase.gone])
    · cases hs
  | probe i =>
    refine Or.inr ⟨i,rfl,?_⟩
    simp only [step] at hs
    split at hs
    · rename_i port hp
      split at hs <;> cases hs <;>
        exact Move.setPhase s rfl (by simp [Phase.holds]) (Or.inl rfl) (by simp)
          (by simp [hp,Phase.listensIpc,Phase.gone])
    · cases hs
  | bindTcp i chosen =>
    refine Or.inr ⟨i,rfl,?_⟩
    simp only [step] at hs
    split at hs
    · rename_i port hp
      split at hs
      · cases hs
      · split at hs
        · cases hs
          exact Move.setPhase s rfl (by simp [Phase.holds]) (Or.inl rfl) (by simp)
            (fun _ => Or.inr rfl)
        · rename_i hfree
          cases hs
          exact Move.setPhase _ rfl (fun _ => Or.inr ⟨chosen,rfl,by simpa using hfree⟩)
            (Or.inl rfl) (by simp) (by simp [hp,Phase.listensIpc,Phase.gone])
    · cases hs
  | clearSocket i =>
    refine Or.inr ⟨i,rfl,?_⟩
    simp only [step] at hs
    split at hs
    · rename_i addr hp
      cases hs
      exact Move.setPhase _ rfl (by simp [hp,Phase.holds])
        (Or.inr ⟨by simp [hp,Phase.holds],Or.inl rfl⟩) (by simp)
        (by simp [hp,Phase.listensIpc,Phase.gone])
    · cases hs
  | bindSocket i =>
    refine Or.inr ⟨i,rfl,?_⟩
    simp only [step] at hs
    split at hs
    · rename_i addr hp
      split at hs
      · cases hs
        exact move_drop
      · cases hs
        exact Move.setPhase _ rfl (by simp [hp,Phase.holds])
          (Or.inr ⟨by simp [hp,Phase.holds],Or.inr ⟨rfl,rfl⟩⟩) (by simp) (fun _ => Or.inl rfl)
    · cases hs
  | setPermissions i =>
    refine Or.inr ⟨i,rfl,?_⟩
    simp only [step] at hs
    split at hs
    · rename_i addr hp
      cases hs
      exact Move.setPhase s rfl (by simp [hp,Phase.holds]) (Or.inl rfl) (by simp [hp])
        (fun _ => Or.inl rfl)
    · cases hs
  | fail i =>
    simp only [step, Option.ite_none_right_eq_some, Option.some.injEq] at hs
    exact Or.inr ⟨i,rfl,hs.2 ▸ move_drop⟩
  | cancel i =>
    refine Or.inr ⟨i,rfl,?_⟩
    simp only [step] at hs
    split at hs
    · rename_i addr hp
      cases hs
      exact Move.setPhase s rfl (by simp [hp,Phase.holds]) (Or.inl rfl) (by simp)
        (fun _ => Or.inl rfl)
    · cases hs
  | closeTcp i =>
    refine Or.inr ⟨i,rfl,?_⟩
    simp only [step] at hs
    split at hs
    · rename_i addr ipc hp
      cases hs
      exact Move.setPhase _ rfl (by simp [hp,Phase.holds]) (Or.inl rfl) (by simp)
        (by cases ipc <;> simp [Phase.listensIpc,Phase.gone])
    · cases hs
  | closeIpc i =>
    refine Or.inr ⟨i,rfl,?_⟩
    simp only [step] at hs
    split at hs
    · rename_i addr tcp hp
      cases hs
      exact Move.setPhase s rfl (by simp [hp,Phase.holds]) (Or.inl rfl) (by simp)
        (fun _ => Or.inr rfl)
    · cases hs
  | removeSocket i removed =>
    refine Or.inr ⟨i,rfl,?_⟩
    simp only [step] at hs
    split at hs
    · rename_i addr tcp hp
      cases hs
      refine Move.setPhase _ rfl (by simp [Phase.holds]) ?_ (by simp) (fun _ => Or.inr rfl)
      cases removed with
      | false => exact Or.inl rfl
      | true => exact Or.inr ⟨by simp [hp,Phase.holds],Or.inl rfl⟩
    · cases hs
  | crash i =>
    refine Or.inr ⟨i,rfl,?_⟩
    simp only [step] at hs
    split at hs
    · cases hs
    · cases hs
    · cases hs
      exact move_drop

theorem holds_of_running {j : ℕ} (hj : (s.phase j).isRunning = true) :
    (s.phase j).holds = true := by
  cases hp : s.phase j <;> simp_all [Phase.isRunning,Phase.holds]

theorem Inv.reachable (h : Inv s) {j : ℕ} (hj : (s.phase j).isRunning = true) :
    Reachable s j := by
  cases hp : s.phase j with
  | running addr => exact ⟨h.owned j addr (Or.inr hp),by simp [hp,Phase.listensIpc]⟩
  | _ => simp [hp,Phase.isRunning] at hj

/-- Where the port decides, a runtime that comes to hold the path is alone. -/
theorem Inv.alone (h : Inv s) (hg : Exclusive s l) (m : Move s l i t)
    (hi : (t.phase i).holds = true) (j : ℕ) (hj : j ≠ i) : (s.phase j).holds = false := by
  rcases m.holds hi with hs | ⟨chosen,rfl,hfree⟩
  · exact Bool.eq_false_iff.mpr (fun hh => hj (h.unique j i hh hs))
  · rcases hg with hnone | hsome
    · exact hnone j hj
    · rw [hfree] at hsome
      cases hsome

theorem lifecycle_step (s : Host) (l : Label) (t : Host) (h : Inv s) (hg : Exclusive s l)
    (hs : step s l = some t) : Inv t := by
  rcases step_move hs with ⟨-,hp,hk⟩ | ⟨i,-,m⟩
  · exact ⟨by rw [hp]; exact h.unique,by rw [hp,hk]; exact h.owned⟩
  · refine ⟨fun a b ha hb => ?_,fun j addr hj => ?_⟩
    · by_cases hai : a = i
      · subst hai
        by_contra hab
        have hnone := h.alone hg m ha b (Ne.symm hab)
        rw [m.frame b (Ne.symm hab),hnone] at hb
        cases hb
      · rw [m.frame a hai] at ha
        by_cases hbi : b = i
        · subst hbi
          rw [h.alone hg m hb a hai] at ha
          cases ha
        · rw [m.frame b hbi] at hb
          exact h.unique a b ha hb
    · by_cases hji : j = i
      · subst hji
        rcases m.owned addr hj with hk | ⟨hb,hk⟩
        · exact hk
        · exact hk.trans (h.owned j addr (Or.inl hb))
      · rw [m.frame j hji] at hj
        rcases m.socket with hk | ⟨hi,-⟩
        · exact hk.trans (h.owned j addr hj)
        · refine absurd (h.unique j i ?_ hi) hji
          rcases hj with hj | hj <;> simp [hj,Phase.holds]

/-- Beside a running agent every step of a start ends it. -/
theorem start_fails (h : Inv s) (hg : Exclusive s l) (hs : step s l = some t)
    (hl : l.actor = some i) (hstart : l.isStart = true) {j : ℕ} (hij : i ≠ j)
    (hj : (s.phase j).isRunning = true) : t.phase i = .ended := by
  have hh := holds_of_running hj
  have hdecides : ∀ port, PortDecides s i port → (s.tcp port).isSome = true := by
    intro port hp
    refine hp.resolve_left (fun hnone => ?_)
    rw [hnone j (Ne.symm hij)] at hh
    cases hh
  have hfree : (s.phase i).holds = false :=
    Bool.eq_false_iff.mpr (fun hi => hij (h.unique i j hi hh))
  cases l with
  | probe k =>
    obtain rfl := Option.some.inj hl
    simp only [step] at hs
    split at hs
    · rename_i port hp
      rw [if_pos (hdecides port (hg port hp))] at hs
      cases hs
      simp
    · cases hs
  | bindTcp k chosen =>
    obtain rfl := Option.some.inj hl
    simp only [step] at hs
    split at hs
    · split at hs
      · cases hs
      · rw [if_pos (hdecides chosen hg)] at hs
        cases hs
        simp
    · cases hs
  | clearSocket k | bindSocket k | setPermissions k =>
    obtain rfl := Option.some.inj hl
    simp only [step] at hs
    split at hs
    · rename_i addr hp
      simp [hp,Phase.holds] at hfree
    · cases hs
  | fail k =>
    obtain rfl := Option.some.inj hl
    simp only [step, Option.ite_none_right_eq_some, Option.some.injEq] at hs
    obtain ⟨tcp,he⟩ := drop_eq (s := s) (i := k)
    rw [← hs.2,he,setPhase_self]
  | _ => simp [Label.isStart] at hstart

/-- The file at the path was bound by a runtime that listens on it still, or has left it
behind. -/
def Traced (s : Host) : Prop :=
  ∀ j, s.socket = some j → (s.phase j).listensIpc = true ∨ (s.phase j).gone = true

theorem traced_step (s : Host) (l : Label) (t : Host) (h : Traced s) (hs : step s l = some t) :
    Traced t := by
  intro j hj
  rcases step_move hs with ⟨-,hp,hk⟩ | ⟨i,-,m⟩
  · rw [hp]
    exact h j (hk.symm.trans hj)
  · rcases m.socket with hk | ⟨-,hk | ⟨hk,hl⟩⟩
    · have hsj := h j (hk.symm.trans hj)
      by_cases hji : j = i
      · subst hji
        exact m.kept hsj
      · rwa [m.frame j hji]
    · rw [hk] at hj
      cases hj
    · obtain rfl := Option.some.inj (hk.symm.trans hj)
      exact Or.inl hl

theorem run_traced {savedPort : UInt16} {ls : List Label}
    (hr : run step ls (initial savedPort) = some s) : Traced s :=
  run_invariant step Traced traced_step ls _ s (by simp [Traced,initial]) hr

theorem initial_inv (savedPort : UInt16) : Inv (initial savedPort) := by
  constructor <;> simp [initial,Phase.holds]

end Steps

/-- In every run in which the port decides each start, a running agent is reachable at
the socket path; a start beside it fails, and no step of another runtime takes the
socket from it. -/
theorem one_agent_per_directory (savedPort : UInt16) (ls : List Label) (s : Host)
    (hg : Guarded step Exclusive ls (initial savedPort))
    (hr : run step ls (initial savedPort) = some s) :
    (∀ j, (s.phase j).isRunning = true → Reachable s j) ∧
    ∀ l t i j, Exclusive s l → step s l = some t → l.actor = some i → i ≠ j →
      (s.phase j).isRunning = true →
      Reachable t j ∧ (l.isStart = true → t.phase i = .ended) := by
  have h : Inv s := guarded_invariant step Exclusive Inv lifecycle_step ls _ s
    (initial_inv savedPort) hg hr
  refine ⟨fun j => h.reachable,fun l t i j hl hs hi hij hj => ?_⟩
  refine ⟨(lifecycle_step s l t h hl hs).reachable ?_,
    fun hstart => start_fails h hl hs hi hstart hij hj⟩
  rcases step_move hs with ⟨hn,-⟩ | ⟨k,hk,m⟩
  · rw [hi] at hn
    cases hn
  · obtain rfl : i = k := Option.some.inj (hi.symm.trans hk)
    rwa [m.frame j (Ne.symm hij)]

def startSteps (i : ℕ) (port : UInt16) : List Label :=
  [.build i,.probe i,.bindTcp i port,.clearSocket i,.bindSocket i,.setPermissions i]

def stopSteps (i : ℕ) : List Label :=
  [.cancel i,.closeTcp i,.closeIpc i,.removeSocket i true]

/-- A second runtime is built while the first one runs on the saved port. -/
def secondBuilt : List Label := startSteps 0 17890++[.build 1]

theorem secondBuilt_runs : (run step secondBuilt (initial 17890)).isSome = true := by
  decide +kernel

def secondBuiltHost : Host := (run step secondBuilt (initial 17890)).get secondBuilt_runs

theorem secondBuilt_guarded : Guarded step Exclusive secondBuilt (initial 17890) := by
  simp +contextual [secondBuilt,startSteps,Guarded,Exclusive,step,initial,PortDecides,
    Host.setPhase,Host.setTcp,Assigned,Phase.holds]

theorem one_agent_second_fails : Reachable secondBuiltHost 0 ∧
    ∃ t, step secondBuiltHost (.probe 1) = some t ∧ Reachable t 0 ∧ t.phase 1 = .ended := by
  have h := one_agent_per_directory 17890 secondBuilt secondBuiltHost secondBuilt_guarded
    (Option.some_get secondBuilt_runs).symm
  have hprobe : (step secondBuiltHost (.probe 1)).isSome = true := by decide +kernel
  have htaken : (secondBuiltHost.tcp 17890).isSome = true := by decide +kernel
  have hport : secondBuiltHost.phase 1 = .built 17890 := by decide +kernel
  have hnext := h.2 (.probe 1) ((step secondBuiltHost (.probe 1)).get hprobe) 1 0
    (fun port hp => Or.inr (by
      obtain rfl := Phase.built.inj (hport.symm.trans hp)
      exact htaken)) (Option.some_get hprobe).symm rfl (by decide) (by decide +kernel)
  exact ⟨h.1 0 (by decide +kernel),_,(Option.some_get hprobe).symm,hnext.1,hnext.2 rfl⟩

/-- The saved port is changed and a second runtime starts on it. -/
def secondStarted : List Label := startSteps 0 17890++.savePort 20000::startSteps 1 20000

theorem secondStarted_runs : (run step secondStarted (initial 17890)).isSome = true := by
  decide +kernel

theorem firstStopped_runs :
    (run step (secondStarted++stopSteps 0) (initial 17890)).isSome = true := by
  decide +kernel

/-- The second start succeeds and takes the path of the running agent; the shutdown of
the first then removes the socket of the second. -/
theorem second_agent_takes_socket :
    let both := (run step secondStarted (initial 17890)).get secondStarted_runs
    let after := (run step (secondStarted++stopSteps 0) (initial 17890)).get firstStopped_runs
    both.phase 0 = .running 17890 ∧ ¬Reachable both 0 ∧ both.phase 1 = .running 20000 ∧
      Reachable both 1 ∧ after.phase 1 = .running 20000 ∧ after.socket = none := by
  decide +kernel

end YinShu.AgentLifecycle
