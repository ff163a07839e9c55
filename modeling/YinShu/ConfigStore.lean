import Mathlib.Logic.Function.Basic
import YinShu.LabelledRun
import YinShu.Settings

/-!
# Saving the configuration

`AgentState::save_config` writes the file and replaces the configuration in
memory in two separate steps, and no lock spans both. The machine below runs
any number of saves side by side. Memory and file agree at rest as long as no
save replaces the memory after a save that wrote the file later; without that
condition a restart brings a different configuration back.
-/

set_option autoImplicit false

namespace YinShu.ConfigStore
open YinShu.Protocol YinShu.Settings YinShu.LabelledRun

/-- Where one call of `save_config` stands; a written save remembers how many
file writes there had been. -/
inductive SavePhase where
  | idle
  | checked (config : AgentConfig)
  | written (config : AgentConfig) (rank : ℕ)
  deriving DecidableEq

/-- The file, the configuration in memory and the saves under way. The ranks and
the mark for failed writes record history; no step reads them. -/
structure Store where
  file : Option String
  memory : AgentConfig
  saves : ℕ → SavePhase := fun _ => .idle
  writes : ℕ := 0
  applied : ℕ := 0
  allOk : Bool := true

/-- A failing write may leave any content behind. -/
inductive SaveStep where
  | start (config : AgentConfig)
  | write
  | writeFails (content : Option String)
  | apply

abbrev Label := ℕ × SaveStep

def Store.setSave (s : Store) (i : ℕ) (phase : SavePhase) : Store :=
  { s with saves := Function.update s.saves i phase }

def step (p : Parsers) (codec : ConfigCodec) (s : Store) : Label → Option Store
  | (i,.start config) =>
    if s.saves i = .idle then
      match checkConfig p config with
      | .error _ => some s
      | .ok checked => some (s.setSave i (.checked checked))
    else none
  | (i,.write) =>
    match s.saves i with
    | .checked config => some (Store.setSave { s with
        file := some (savedText codec config), writes := s.writes+1 } i
        (.written config (s.writes+1)))
    | _ => none
  | (i,.writeFails content) =>
    match s.saves i with
    | .checked _ => some (Store.setSave { s with file := content, allOk := false } i .idle)
    | _ => none
  | (i,.apply) =>
    match s.saves i with
    | .written config rank =>
      some (Store.setSave { s with memory := config, applied := rank } i .idle)
    | _ => none

def SavePhase.rank : SavePhase → Option ℕ
  | .written _ rank => some rank
  | _ => none

/-- No save replaces the memory once a save that wrote the file after it has. -/
def InOrder (s : Store) : Label → Prop
  | (i,.apply) => ∀ rank ∈ (s.saves i).rank, s.applied < rank
  | _ => True

instance inOrderDecidable (s : Store) : ∀ l, Decidable (InOrder s l)
  | (i,.apply) => inferInstanceAs (Decidable (∀ rank ∈ (s.saves i).rank, s.applied < rank))
  | (_,.start _) | (_,.write) | (_,.writeFails _) => isTrue trivial

def AtRest (s : Store) : Prop := ∀ i, s.saves i = .idle

/-- The codec reads back what it writes for the configuration of a save. -/
def ReadsBack (codec : ConfigCodec) : Label → Prop
  | (_,.start config) => codec.decode (codec.encode config.normalized) = some config.normalized
  | _ => True

structure Inv (codec : ConfigCodec) (s : Store) : Prop where
  normal : ∀ i config, s.saves i = .checked config → config.normalized = config ∧
    codec.decode (codec.encode config) = some config
  ranked : ∀ i config rank, s.saves i = .written config rank → rank ≤ s.writes
  latest : s.allOk = true → ∀ i config, s.saves i = .written config s.writes →
    load codec s.file = some config
  reached : s.applied ≤ s.writes
  due : s.applied < s.writes → ∃ i config, s.saves i = .written config s.writes
  agree : s.allOk = true → s.applied = s.writes → load codec s.file = some s.memory

section Steps

variable {p : Parsers} {codec : ConfigCodec} {s t : Store}

theorem checkConfig_normalized {config checked : AgentConfig}
    (h : checkConfig p config = .ok checked) : checked = config.normalized := by
  unfold checkConfig at h
  split at h
  · cases h
  · split at h
    · cases h
    · exact (Except.ok.inj h).symm

theorem load_saved {config : AgentConfig} (hn : config.normalized = config)
    (hd : codec.decode (codec.encode config) = some config) :
    load codec (some (savedText codec config)) = some config := by
  simp [load,savedText,hn,hd]

theorem setSave_eq {i j : ℕ} {phase target : SavePhase}
    (h : (s.setSave i phase).saves j = target) (hne : phase ≠ target) : s.saves j = target := by
  by_cases hji : j = i
  · subst hji
    exact absurd (by simpa [Store.setSave] using h) hne
  · simpa [Store.setSave,hji] using h

theorem setSave_other {i j : ℕ} {phase target : SavePhase} (h : s.saves j = target)
    (hne : s.saves i ≠ target) : (s.setSave i phase).saves j = target := by
  have hji : j ≠ i := by
    rintro rfl
    exact hne h
  simpa [Store.setSave,hji] using h

theorem Inv.start (h : Inv codec s) (i : ℕ) (config : AgentConfig) (hi : s.saves i = .idle)
    (hn : config.normalized = config)
    (hd : codec.decode (codec.encode config) = some config) :
    Inv codec (s.setSave i (.checked config)) where
  normal j c hj := by
    by_cases hc : c = config
    · exact hc ▸ ⟨hn,hd⟩
    · exact h.normal j c (setSave_eq hj (by simpa using Ne.symm hc))
  ranked j c rank hj := h.ranked j c rank (setSave_eq hj (by simp))
  latest hok j c hj := h.latest hok j c (setSave_eq hj (by simp))
  reached := h.reached
  due hlt := by
    obtain ⟨j,c,hj⟩ := h.due hlt
    exact ⟨j,c,setSave_other hj (by simp [hi])⟩
  agree := h.agree

theorem Inv.write (h : Inv codec s) (i : ℕ) (config : AgentConfig)
    (hi : s.saves i = .checked config) :
    Inv codec (Store.setSave { s with
      file := some (savedText codec config), writes := s.writes+1 } i
      (.written config (s.writes+1))) where
  normal j c hj := h.normal j c (setSave_eq hj (by simp))
  ranked j c rank hj := by
    by_cases hr : rank = s.writes+1
    · exact Nat.le_of_eq hr
    · have hle := h.ranked j c rank (setSave_eq hj (by simp [Ne.symm hr]))
      exact Nat.le_succ_of_le hle
  latest _ j c hj := by
    obtain ⟨hn,hd⟩ := h.normal i config hi
    by_cases hc : c = config
    · subst hc
      exact load_saved hn hd
    · have hle := h.ranked j c (s.writes+1) (setSave_eq hj (by simp [Ne.symm hc]))
      omega
  reached := Nat.le_succ_of_le h.reached
  due _ := ⟨i,config,by simp [Store.setSave]⟩
  agree _ he := by
    have hle := h.reached
    simp only [Store.setSave] at he
    omega

theorem Inv.writeFails (h : Inv codec s) (i : ℕ) (config : AgentConfig)
    (hi : s.saves i = .checked config) (content : Option String) :
    Inv codec (Store.setSave { s with file := content, allOk := false } i .idle) where
  normal j c hj := h.normal j c (setSave_eq hj (by simp))
  ranked j c rank hj := h.ranked j c rank (setSave_eq hj (by simp))
  latest hok := by simp [Store.setSave] at hok
  reached := h.reached
  due hlt := by
    obtain ⟨j,c,hj⟩ := h.due hlt
    exact ⟨j,c,setSave_other hj (by simp [hi])⟩
  agree hok := by simp [Store.setSave] at hok

theorem Inv.apply (h : Inv codec s) (i : ℕ) (config : AgentConfig) (rank : ℕ)
    (hi : s.saves i = .written config rank) (ho : s.applied < rank) :
    Inv codec (Store.setSave { s with memory := config, applied := rank } i .idle) where
  normal j c hj := h.normal j c (setSave_eq hj (by simp))
  ranked j c r hj := h.ranked j c r (setSave_eq hj (by simp))
  latest hok j c hj := h.latest hok j c (setSave_eq hj (by simp))
  reached := h.ranked i config rank hi
  due hlt := by
    obtain ⟨j,c,hj⟩ := h.due (Nat.lt_of_lt_of_le ho (h.ranked i config rank hi))
    refine ⟨j,c,setSave_other hj ?_⟩
    rw [hi]
    intro he
    exact Nat.ne_of_lt hlt (SavePhase.written.inj he).2
  agree hok he := by
    change rank = s.writes at he
    subst he
    exact h.latest hok i config hi

/-- What a step can be, and what it leaves behind. -/
theorem step_cases {i : ℕ} {l : SaveStep} (h : step p codec s (i,l) = some t) :
    (∃ config, l = .start config ∧ s.saves i = .idle ∧ (t = s ∨ ∃ checked,
      checkConfig p config = .ok checked ∧ t = s.setSave i (.checked checked))) ∨
    (∃ config, l = .write ∧ s.saves i = .checked config ∧ t = Store.setSave { s with
      file := some (savedText codec config), writes := s.writes+1 } i
      (.written config (s.writes+1))) ∨
    (∃ content config, l = .writeFails content ∧ s.saves i = .checked config ∧
      t = Store.setSave { s with file := content, allOk := false } i .idle) ∨
    (∃ config rank, l = .apply ∧ s.saves i = .written config rank ∧
      t = Store.setSave { s with memory := config, applied := rank } i .idle) := by
  cases l with
  | start config =>
    simp only [step, Option.ite_none_right_eq_some] at h
    obtain ⟨hi,h⟩ := h
    refine Or.inl ⟨config,rfl,hi,?_⟩
    cases hc : checkConfig p config with
    | error e =>
      simp only [hc, Option.some.injEq] at h
      exact Or.inl h.symm
    | ok checked =>
      simp only [hc, Option.some.injEq] at h
      exact Or.inr ⟨checked,rfl,h.symm⟩
  | write =>
    cases hi : s.saves i <;> simp only [step,hi,reduceCtorEq,Option.some.injEq] at h
    exact Or.inr (Or.inl ⟨_,rfl,rfl,h.symm⟩)
  | writeFails content =>
    cases hi : s.saves i <;> simp only [step,hi,reduceCtorEq,Option.some.injEq] at h
    exact Or.inr (Or.inr (Or.inl ⟨_,_,rfl,rfl,h.symm⟩))
  | apply =>
    cases hi : s.saves i <;> simp only [step,hi,reduceCtorEq,Option.some.injEq] at h
    exact Or.inr (Or.inr (Or.inr ⟨_,_,rfl,rfl,h.symm⟩))

theorem step_inv (s : Store) (l : Label) (t : Store) (h : Inv codec s)
    (hg : InOrder s l ∧ ReadsBack codec l) (hs : step p codec s l = some t) : Inv codec t := by
  obtain ⟨i,l⟩ := l
  obtain ⟨config,rfl,hi,rfl | ⟨checked,hc,rfl⟩⟩ | ⟨config,rfl,hi,rfl⟩ |
    ⟨content,config,rfl,hi,rfl⟩ | ⟨config,rank,rfl,hi,rfl⟩ := step_cases hs
  · exact h
  · obtain rfl := checkConfig_normalized hc
    exact h.start i _ hi (normalized_idempotent config) hg.2
  · exact h.write i _ hi
  · exact h.writeFails i _ hi content
  · exact h.apply i _ _ hi (by simpa [InOrder,hi,SavePhase.rank] using hg.1)

theorem initial_inv (file : Option String) (memory : AgentConfig)
    (h : load codec file = some memory) : Inv codec { file := file, memory := memory } := by
  constructor <;> simp [h]

end Steps

/-- Memory and file agree whenever no save is under way, in every run whose memory
writes respect the order of the file writes. -/
theorem saved_config_agrees (p : Parsers) (codec : ConfigCodec) (file : Option String)
    (memory : AgentConfig) (ls : List Label) (s : Store) (h0 : load codec file = some memory)
    (hc : ∀ l ∈ ls, ReadsBack codec l)
    (hg : Guarded (step p codec) InOrder ls { file := file, memory := memory })
    (hr : run (step p codec) ls { file := file, memory := memory } = some s)
    (hrest : AtRest s) (hok : s.allOk = true) : load codec s.file = some s.memory := by
  have h : Inv codec s := guarded_invariant (step p codec)
    (fun s l => InOrder s l ∧ ReadsBack codec l) (Inv codec) step_inv ls _ s
    (initial_inv file memory h0) (guarded_and_mem _ _ _ ls _ hg hc) hr
  refine h.agree hok (Nat.le_antisymm h.reached (Nat.le_of_not_lt (fun hlt => ?_)))
  obtain ⟨i,config,hi⟩ := h.due hlt
  rw [hrest i] at hi
  cases hi

/-- The text of the first-run configuration with another port. -/
def portText (port : String) : String :=
  "\x7b\n  \"service\": \x7b\n    \"host\": \"127.0.0.1\",\n    \"port\": " ++ port ++
  "\n  \x7d,\n  \"security\": \x7b\n    \"allowed_origins\": [],\n    \"allowed_ips\": [\n" ++
  "      \"127.0.0.1\"\n    ]\n  \x7d,\n  \"printing\": \x7b\n    \"default_printer\": null,\n" ++
  "    \"default_paper\": null,\n    \"default_copies\": 1\n  \x7d,\n  \"limits\": \x7b\n" ++
  "    \"max_file_size_mb\": 20,\n    \"max_batch_jobs\": 20,\n    \"max_copies\": 100,\n" ++
  "    \"download_timeout_seconds\": 30\n  \x7d,\n  \"app\": \x7b\n    \"autostart\": false,\n" ++
  "    \"language\": \"zh-CN\"\n  \x7d\n\x7d"

def portConfig (port : UInt16) : AgentConfig := { AgentConfig.default with
  service := ⟨"127.0.0.1",port⟩ }

/-- The codec on the two configurations of the runs below. -/
def portCodec : ConfigCodec where
  encode config := if config = portConfig 19090 then portText "19090" else portText "19091"
  decode text :=
    if text = portText "19090" then some (portConfig 19090)
    else if text = portText "19091" then some (portConfig 19091) else none

def noParsers : Parsers := ⟨fun _ => none,fun _ => none,fun _ => none⟩

def firstRun : Store := { file := none, memory := AgentConfig.default }

/-- Two saves whose steps are nested the right way round. -/
def nestedSaves : List Label :=
  [(0,.start (portConfig 19090)),(1,.start (portConfig 19091)),(0,.write),(1,.write),
    (0,.apply),(1,.apply)]

/-- The same saves; the first to write the file is the last to replace the memory. -/
def overtakenSaves : List Label :=
  [(0,.start (portConfig 19090)),(1,.start (portConfig 19091)),(0,.write),(1,.write),
    (1,.apply),(0,.apply)]

theorem nestedSaves_runs :
    (run (step noParsers portCodec) nestedSaves firstRun).isSome = true := by
  decide

theorem portCodec_reads_back : ∀ l ∈ nestedSaves, ReadsBack portCodec l := by
  have h90 : portCodec.decode (portCodec.encode (portConfig 19090).normalized) =
      some (portConfig 19090).normalized := by decide +kernel
  have h91 : portCodec.decode (portCodec.encode (portConfig 19091).normalized) =
      some (portConfig 19091).normalized := by decide +kernel
  simp [nestedSaves,ReadsBack,h90,h91]

theorem saved_config_agrees_nested :
    load portCodec ((run (step noParsers portCodec) nestedSaves firstRun).get
      nestedSaves_runs).file = some (portConfig 19091) := by
  exact saved_config_agrees noParsers portCodec none AgentConfig.default nestedSaves _ rfl
    portCodec_reads_back (by decide) (Option.some_get nestedSaves_runs).symm
    (fun i => match i with
      | 0 => by decide
      | 1 => by decide
      | _+2 => rfl) (by decide)

theorem overtakenSaves_runs :
    (run (step noParsers portCodec) overtakenSaves firstRun).isSome = true := by
  decide

def overtakenResult : Store :=
  (run (step noParsers portCodec) overtakenSaves firstRun).get overtakenSaves_runs

/-- Both saves succeed and none is under way; a restart brings back the other port. -/
theorem overtaken_saves_disagree :
    load portCodec firstRun.file = some firstRun.memory ∧ AtRest overtakenResult ∧
      overtakenResult.allOk = true ∧ overtakenResult.memory = portConfig 19090 ∧
      load portCodec overtakenResult.file = some (portConfig 19091) ∧
      load portCodec overtakenResult.file ≠ some overtakenResult.memory :=
  ⟨rfl,fun i => match i with
    | 0 => by decide
    | 1 => by decide
    | _+2 => rfl,by decide,by decide,by decide +kernel,by decide +kernel⟩

end YinShu.ConfigStore
