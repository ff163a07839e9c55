import Mathlib.Logic.Function.Basic
import YinShu.Document
import YinShu.LabelledRun
import YinShu.PaperSizes
import YinShu.Settings
import YinShu.TaskHistory

/-!
# Test pages beside the worker

A test page is printed on request, at any time and by any number of callers,
while the worker prints its jobs. All of them hand their documents to the print
backend under one fair lock. A test page is a temporary file of its own, and a
row of the task history says how its printing ended.
-/

set_option autoImplicit false

namespace YinShu.TestPrint
open YinShu.LabelledRun YinShu.Settings YinShu.Protocol YinShu.PrintModel YinShu.PaperSizes
open YinShu.Document YinShu.TaskHistory

inductive TestPrintError where
  | printerNotConfigured
  | paperNotConfigured
  | document (error : DocumentError)
  | print (error : PrintError)
  deriving DecidableEq, Repr

def TestPrintError.message : TestPrintError → String
  | .printerNotConfigured => "printer not configured"
  | .paperNotConfigured => "paper not configured"
  | .document error => "document generation failed: "++error.message
  | .print error => "print failed: "++error.message

structure TestRun where
  jobId : String
  path : String
  printerName : String
  paper : EffectivePaper
  deriving DecidableEq, Repr

/-- What is handed to the print backend. -/
inductive Request where
  | pdf (path : String) (options : PrintOptions)
  | raw (data : List UInt8) (options : RawPrintOptions)
  deriving DecidableEq, Repr

def TestRun.request (run : TestRun) : Request :=
  .pdf run.path ⟨run.printerName,paperInfoFromEffective run.paper,1⟩

/-- `print_test_page_with_config` up to its first call of the backend. -/
def configured (config : AgentConfig) (jobId path : String) : Except TestPrintError TestRun :=
  match config.printing.defaultPrinter with
  | none => .error .printerNotConfigured
  | some printerName =>
    match config.printing.defaultPaper with
    | none => .error .paperNotConfigured
    | some paper => .ok ⟨jobId,path,printerName,paper⟩

/-- `record_test_print_history`, which passes over a printer that is off line. -/
def historyEvent (run : TestRun) (occurredAt : String) :
    Except TestPrintError Unit → Option NewTaskHistoryEvent
  | .error (.print .printerOffline) => none
  | .error error => some ⟨run.jobId,none,none,.test,.failed,some error.message,
      some run.printerName,some (paperName run.paper.widthMm run.paper.heightMm),some 1,occurredAt⟩
  | .ok _ => some ⟨run.jobId,none,none,.test,.submitted,some "submitted to system print queue",
      some run.printerName,some (paperName run.paper.widthMm run.paper.heightMm),some 1,occurredAt⟩

inductive Phase where
  | idle
  | preparing (run : TestRun)
  | ready (run : TestRun)
  | jobQueued (request : Request)
  | queued (run : TestRun)
  | printed (run : TestRun) (result : Except TestPrintError Unit)
  | done (run : Option TestRun) (result : Except TestPrintError Unit) (occurredAt : String)

/-- What a party has asked the lock for. -/
def Phase.request? : Phase → Option Request
  | .jobQueued request => some request
  | .queued run => some run.request
  | _ => none

/-- Party 0 is the worker. `order` has the holder of the lock first and then the parties
that wait for it; `asked` and `calls` record what was asked for and what was printed. -/
structure State where
  phase : ℕ → Phase := fun _ => .idle
  file : ℕ → Bool := fun _ => false
  order : List ℕ := []
  history : List (ℕ × NewTaskHistoryEvent) := []
  asked : List (ℕ × Request) := []
  calls : List (ℕ × Request) := []

inductive Label where
  | jobAsk (request : Request)
  | begin (i : ℕ) (config : AgentConfig) (jobId path : String)
  | write (i : ℕ) (result : Except DocumentError Unit) (left : Bool)
  | ask (i : ℕ)
  | print (i : ℕ) (result : Except PrintError PrintSubmission)
  | finish (i : ℕ) (occurredAt : String) (removed : Bool)

def State.setPhase (s : State) (i : ℕ) (phase : Phase) : State :=
  { s with phase := Function.update s.phase i phase }

/-- The lock is asked for: its free holder's place or the end of the line. -/
def State.enter (s : State) (i : ℕ) (phase : Phase) (request : Request) : State :=
  { s.setPhase i phase with order := s.order++[i], asked := s.asked++[(i,request)] }

/-- The holder has called the backend and releases the lock. -/
def State.leave (s : State) (i : ℕ) (phase : Phase) (request : Request) : State :=
  { s.setPhase i phase with order := s.order.tail, calls := s.calls++[(i,request)] }

/-- A failed PDF may leave a part of the file behind. -/
def State.write (s : State) (i : ℕ) (run : TestRun) :
    Except DocumentError Unit → Bool → State
  | .ok _,_ => { s.setPhase i (.ready run) with file := Function.update s.file i true }
  | .error error,left => { s.setPhase i (.printed run (.error (.document error))) with
      file := Function.update s.file i left }

def State.finish (s : State) (i : ℕ) (run : TestRun) (result : Except TestPrintError Unit)
    (occurredAt : String) (removed : Bool) : State :=
  { s.setPhase i (.done (some run) result occurredAt) with
    file := Function.update s.file i (s.file i && !removed)
    history := s.history++
      ((historyEvent run occurredAt result).map (fun event => (i,event))).toList }

def step (s : State) : Label → Option State
  | .jobAsk request =>
    match s.phase 0 with
    | .idle => some (s.enter 0 (.jobQueued request) request)
    | _ => none
  | .begin i config jobId path =>
    if i = 0 then none
    else match s.phase i with
      | .idle => match configured config jobId path with
        | .ok run => some (s.setPhase i (.preparing run))
        | .error error => some (s.setPhase i (.done none (.error error) ""))
      | _ => none
  | .write i result left =>
    match s.phase i with
    | .preparing run => some (s.write i run result left)
    | _ => none
  | .ask i =>
    match s.phase i with
    | .ready run => some (s.enter i (.queued run) run.request)
    | _ => none
  | .print i result =>
    if s.order.head? = some i then
      match s.phase i with
      | .jobQueued request => some (s.leave i .idle request)
      | .queued run => some (s.leave i
          (.printed run ((result.map (fun _ => ())).mapError .print)) run.request)
      | _ => none
    else none
  | .finish i occurredAt removed =>
    match s.phase i with
    | .printed run result => some (s.finish i run result occurredAt removed)
    | _ => none

/-- The entries of one party. -/
def entriesOf {α : Type} (i : ℕ) (entries : List (ℕ × α)) : List α :=
  (entries.filter (fun entry => entry.1 == i)).map Prod.snd

/-- The calls that a party must have made by now, and the rows it must have written. -/
def Phase.calls : Phase → List Request
  | .printed _ (.error (.document _)) | .done (some _) (.error (.document _)) _ => []
  | .printed run _ | .done (some run) _ _ => [run.request]
  | _ => []

def Phase.events : Phase → List NewTaskHistoryEvent
  | .done (some run) result occurredAt => (historyEvent run occurredAt result).toList
  | _ => []

/-- The page of the party is written and still needed. -/
def Phase.needsFile : Phase → Bool
  | .ready _ | .queued _ => true
  | _ => false

def Phase.isTest : Phase → Bool
  | .jobQueued _ => false
  | _ => true

def State.waiting (s : State) : List (ℕ × Request) :=
  s.order.filterMap (fun i => (s.phase i).request?.map (fun request => (i,request)))

structure State.Inv (s : State) : Prop where
  distinct : s.order.Nodup
  inLine : ∀ i, i ∈ s.order ↔ (s.phase i).request?.isSome = true
  fifo : s.asked = s.calls++s.waiting
  calls : ∀ i, i ≠ 0 → entriesOf i s.calls = (s.phase i).calls
  events : ∀ i, i ≠ 0 → entriesOf i s.history = (s.phase i).events
  file : ∀ i, (s.phase i).needsFile = true → s.file i = true
  test : ∀ i, i ≠ 0 → (s.phase i).isTest = true

section Entries

variable {α : Type} {i j : ℕ} (entries : List (ℕ × α))

theorem entriesOf_same (xs : List α) :
    entriesOf i (entries++xs.map (fun x => (i,x))) = entriesOf i entries++xs := by
  have hown : entriesOf i (xs.map (fun x => (i,x))) = xs := by
    induction xs with
    | nil => rfl
    | cons x xs ih => simpa [entriesOf] using ih
  have happ : entriesOf i (entries++xs.map (fun x => (i,x))) =
      entriesOf i entries++entriesOf i (xs.map (fun x => (i,x))) := by
    simp only [entriesOf,List.filter_append,List.map_append]
  rw [happ,hown]

theorem entriesOf_other (h : j ≠ i) (xs : List α) :
    entriesOf j (entries++xs.map (fun x => (i,x))) = entriesOf j entries := by
  have hnone : (xs.map (fun x => (i,x))).filter (fun entry => entry.1 == j) = [] := by
    simp [List.filter_eq_nil_iff,Ne.symm h]
  simp only [entriesOf,List.filter_append,hnone,List.append_nil]

end Entries

section Steps

variable {s : State} {i j : ℕ} {phase : Phase} {request : Request}

@[simp] theorem setPhase_other (h : j ≠ i) : (s.setPhase i phase).phase j = s.phase j :=
  by simp [State.setPhase,h]

theorem waiting_setPhase (h : i ∉ s.order) : (s.setPhase i phase).waiting = s.waiting := by
  refine List.filterMap_congr (fun j hj => ?_)
  rw [setPhase_other (by rintro rfl; exact h hj)]

theorem State.Inv.notInLine (h : s.Inv) (hi : (s.phase i).request? = none) : i ∉ s.order := by
  rw [h.inLine,hi]
  simp

/-- A step outside of the lock: the phase of one party, its file and rows of its own. -/
theorem State.Inv.quiet (h : s.Inv) (phase : Phase) (hi : (s.phase i).request? = none)
    (hp : phase.request? = none) (events : List NewTaskHistoryEvent) (present : Bool)
    (hcalls : phase.calls = (s.phase i).calls)
    (hevents : phase.events = (s.phase i).events++events)
    (hfile : phase.needsFile = true → present = true) (htest : phase.isTest = true) :
    ({ s.setPhase i phase with
      file := Function.update s.file i present
      history := s.history++events.map (fun event => (i,event)) } : State).Inv where
  distinct := h.distinct
  inLine j := by
    by_cases hj : j = i
    · subst hj
      simpa [State.setPhase,hp,hi] using h.inLine j
    · simpa [State.setPhase,hj] using h.inLine j
  fifo := h.fifo.trans (congrArg (s.calls++·) (waiting_setPhase (h.notInLine hi)).symm)
  calls j hj := by
    by_cases hji : j = i
    · subst hji
      simpa [State.setPhase,hcalls] using h.calls j hj
    · simpa [State.setPhase,hji] using h.calls j hj
  events j hj := by
    by_cases hji : j = i
    · subst hji
      simp only [entriesOf_same,h.events j hj]
      simp [State.setPhase,hevents]
    · simp only [entriesOf_other _ hji,h.events j hj]
      simp [State.setPhase,hji]
  file j := by
    by_cases hji : j = i
    · subst hji
      simpa [State.setPhase] using hfile
    · simpa [State.setPhase,hji] using h.file j
  test j hj := by
    by_cases hji : j = i
    · subst hji
      simpa [State.setPhase] using htest
    · simpa [State.setPhase,hji] using h.test j hj

theorem State.Inv.enter (h : s.Inv) (hi : (s.phase i).request? = none)
    (hp : phase.request? = some request) (hcalls : phase.calls = (s.phase i).calls)
    (hevents : phase.events = (s.phase i).events)
    (hfile : phase.needsFile = true → s.file i = true) (htest : i ≠ 0 → phase.isTest = true) :
    (s.enter i phase request).Inv where
  distinct := by
    have hn := h.notInLine hi
    rw [State.enter,List.nodup_append]
    exact ⟨h.distinct,by simp,by rintro j hj k hk rfl; simp_all⟩
  inLine j := by
    by_cases hj : j = i
    · subst hj
      simp [State.enter,State.setPhase,hp]
    · simpa [State.enter,State.setPhase,hj] using h.inLine j
  fifo := by
    have hold : (s.setPhase i phase).waiting = s.waiting := waiting_setPhase (h.notInLine hi)
    have hnew : (s.enter i phase request).waiting = s.waiting++[(i,request)] := by
      rw [← hold]
      simp [State.waiting,State.enter,State.setPhase,hp]
    rw [hnew,State.enter,h.fifo,List.append_assoc]
    rfl
  calls j hj := by
    by_cases hji : j = i
    · subst hji
      simpa [State.enter,State.setPhase,hcalls] using h.calls j hj
    · simpa [State.enter,State.setPhase,hji] using h.calls j hj
  events j hj := by
    by_cases hji : j = i
    · subst hji
      simpa [State.enter,State.setPhase,hevents] using h.events j hj
    · simpa [State.enter,State.setPhase,hji] using h.events j hj
  file j := by
    by_cases hji : j = i
    · subst hji
      simpa [State.enter,State.setPhase] using hfile
    · simpa [State.enter,State.setPhase,hji] using h.file j
  test j hj := by
    by_cases hji : j = i
    · subst hji
      simpa [State.enter,State.setPhase] using htest hj
    · simpa [State.enter,State.setPhase,hji] using h.test j hj

theorem State.Inv.leave (h : s.Inv) (hhead : s.order.head? = some i)
    (hi : (s.phase i).request? = some request) (hp : phase.request? = none)
    (hcalls : i ≠ 0 → phase.calls = (s.phase i).calls++[request])
    (hevents : phase.events = (s.phase i).events) (hfile : phase.needsFile = false)
    (htest : phase.isTest = true) : (s.leave i phase request).Inv := by
  obtain ⟨rest,hrest⟩ : ∃ rest, s.order = i::rest := List.head?_eq_some_iff.mp hhead
  have hnodup := h.distinct
  rw [hrest,List.nodup_cons] at hnodup
  have hown : ∀ j, j ∈ rest → j ≠ i := fun j hj hji => hnodup.1 (hji ▸ hj)
  refine ⟨?_,?_,?_,?_,?_,?_,?_⟩
  · simpa [State.leave,hrest] using hnodup.2
  · intro j
    have hj := h.inLine j
    rw [hrest,List.mem_cons] at hj
    by_cases hji : j = i
    · subst hji
      simpa [State.leave,State.setPhase,hp,hrest] using hnodup.1
    · simpa [State.leave,State.setPhase,hji,hrest] using hj
  · have hwaiting : s.waiting = (i,request)::(s.leave i phase request).waiting := by
      have hsame : rest.filterMap (fun j => (s.phase j).request?.map (fun r => (j,r))) =
          rest.filterMap (fun j =>
            ((s.setPhase i phase).phase j).request?.map (fun r => (j,r))) :=
        List.filterMap_congr (fun j hj => by rw [setPhase_other (hown j hj)])
      simp only [State.waiting,hrest,List.filterMap_cons,hi,Option.map_some,State.leave,
        List.tail_cons,hsame]
    calc s.asked = s.calls++(i,request)::(s.leave i phase request).waiting := by
          rw [h.fifo,hwaiting]
      _ = (s.leave i phase request).calls++(s.leave i phase request).waiting := by
          simp [State.leave]
  · intro j hj
    by_cases hji : j = i
    · subst hji
      have hsame := entriesOf_same (i := j) s.calls [request]
      simp only [List.map_cons,List.map_nil] at hsame
      simp only [State.leave,State.setPhase,hsame,h.calls j hj,Function.update_self]
      exact (hcalls hj).symm
    · have hother := entriesOf_other s.calls hji [request]
      simp only [List.map_cons,List.map_nil] at hother
      simpa [State.leave,State.setPhase,hji,hother] using h.calls j hj
  · intro j hj
    by_cases hji : j = i
    · subst hji
      simpa [State.leave,State.setPhase,hevents] using h.events j hj
    · simpa [State.leave,State.setPhase,hji] using h.events j hj
  · intro j
    by_cases hji : j = i
    · subst hji
      simp [State.leave,State.setPhase,hfile]
    · simpa [State.leave,State.setPhase,hji] using h.file j
  · intro j hj
    by_cases hji : j = i
    · subst hji
      simpa [State.leave,State.setPhase] using htest
    · simpa [State.leave,State.setPhase,hji] using h.test j hj

theorem State.Inv.turn (h : s.Inv) (hi : (s.phase i).request? = none)
    (hp : phase.request? = none) (hcalls : phase.calls = (s.phase i).calls)
    (hevents : phase.events = (s.phase i).events)
    (hfile : phase.needsFile = true → s.file i = true) (htest : phase.isTest = true) :
    (s.setPhase i phase).Inv := by
  have hquiet := h.quiet phase hi hp [] (s.file i) hcalls (by simpa using hevents) hfile htest
  simpa [State.setPhase] using hquiet

theorem State.Inv.write (h : s.Inv) {run : TestRun} (hi : s.phase i = .preparing run)
    (result : Except DocumentError Unit) (left : Bool) : (s.write i run result left).Inv := by
  cases result with
  | ok _ =>
    have hquiet := h.quiet (.ready run) (by rw [hi]; rfl : (s.phase i).request? = none) rfl [] true
      (by rw [hi]; rfl) (by rw [hi]; rfl) (fun _ => rfl) rfl
    simpa [State.write,State.setPhase] using hquiet
  | error error =>
    have hquiet := h.quiet (.printed run (.error (.document error)))
      (by rw [hi]; rfl : (s.phase i).request? = none) rfl [] left
      (by rw [hi]; rfl) (by rw [hi]; rfl) (by simp [Phase.needsFile])
      rfl
    simpa [State.write,State.setPhase] using hquiet

theorem State.Inv.finish (h : s.Inv) {run : TestRun} {result : Except TestPrintError Unit}
    (hi : s.phase i = .printed run result) (occurredAt : String) (removed : Bool) :
    (s.finish i run result occurredAt removed).Inv := by
  have hquiet := h.quiet (.done (some run) result occurredAt)
    (by rw [hi]; rfl : (s.phase i).request? = none) rfl
    (historyEvent run occurredAt result).toList (s.file i && !removed)
    (by rw [hi]; cases result with | ok _ => rfl | error e => cases e <;> rfl)
    (by rw [hi]; rfl) (by simp [Phase.needsFile]) rfl
  cases hevent : historyEvent run occurredAt result <;>
    simpa [State.finish,hevent] using hquiet

theorem inv_step {t : State} {l : Label} (h : s.Inv) (hstep : step s l = some t) : t.Inv := by
  cases l with
  | jobAsk request =>
    simp only [step] at hstep
    split at hstep <;> cases hstep
    case h_1.refl hi =>
      exact h.enter (by rw [hi]; rfl) rfl (by rw [hi]; rfl) (by rw [hi]; rfl)
        (by simp [Phase.needsFile]) (fun h0 => absurd rfl h0)
  | begin i config jobId path =>
    simp only [step] at hstep
    split at hstep
    · cases hstep
    · split at hstep
      · case h_1 hi =>
        split at hstep <;> cases hstep
        · exact h.turn (by rw [hi]; rfl) rfl (by rw [hi]; rfl) (by rw [hi]; rfl)
            (by simp [Phase.needsFile]) rfl
        · exact h.turn (by rw [hi]; rfl) rfl (by rw [hi]; rfl) (by rw [hi]; rfl)
            (by simp [Phase.needsFile]) rfl
      · cases hstep
  | write i result left =>
    simp only [step] at hstep
    split at hstep <;> cases hstep
    case h_1.refl hi => exact h.write hi result left
  | ask i =>
    simp only [step] at hstep
    split at hstep <;> cases hstep
    case h_1.refl hi =>
      exact h.enter (by rw [hi]; rfl) rfl (by rw [hi]; rfl) (by rw [hi]; rfl)
        (fun _ => h.file i (by rw [hi]; rfl)) (fun _ => rfl)
  | print i result =>
    simp only [step] at hstep
    split at hstep
    · case isTrue hhead =>
      split at hstep <;> cases hstep
      case h_1.refl request hi =>
        refine h.leave hhead (by rw [hi]; rfl) rfl (fun h0 => ?_) (by rw [hi]; rfl) rfl rfl
        exact absurd (h.test i h0) (by rw [hi]; simp [Phase.isTest])
      case h_2.refl run hi =>
        refine h.leave hhead (by rw [hi]; rfl) rfl (fun _ => ?_) (by rw [hi]; rfl) rfl rfl
        rw [hi]
        cases result <;> rfl
    · cases hstep
  | finish i occurredAt removed =>
    simp only [step] at hstep
    split at hstep <;> cases hstep
    case h_1.refl hi => exact h.finish hi occurredAt removed

theorem initial_inv : ({} : State).Inv where
  distinct := List.nodup_nil
  inLine := by simp [Phase.request?]
  fifo := rfl
  calls _ _ := rfl
  events _ _ := rfl
  file := by simp [Phase.needsFile]
  test _ _ := rfl

/-- Whoever stands first in line can call the backend. -/
theorem State.Inv.head_prints (h : s.Inv) (hne : s.order ≠ []) :
    ∃ i, ∀ result, (step s (.print i result)).isSome = true := by
  obtain ⟨i,rest,horder⟩ := List.exists_cons_of_ne_nil hne
  have hsome : (s.phase i).request?.isSome = true := (h.inLine i).mp (by simp [horder])
  refine ⟨i,fun result => ?_⟩
  cases hp : s.phase i <;> simp_all [step,Phase.request?]

end Steps

def labelConfig : AgentConfig :=
  { AgentConfig.default with printing := ⟨some "label",some ⟨60,40⟩,1⟩ }

/-- A test page waits for the worker's raw job and then finds the printer off line. -/
def contested : List Label :=
  [.jobAsk (.raw [] ⟨"label"⟩),
    .begin 1 labelConfig "7d444840-9dc0-41d1-b245-5ffdce74fad2" "/tmp/yinshu-test-page.pdf",
    .write 1 (.ok ()) false,.ask 1,
    .print 0 (.ok ⟨"2024-01-01T00:00:00Z","linux-cups-raw",none,false⟩),
    .print 1 (.error .printerOffline),.finish 1 "2024-01-01T00:00:01Z" true]

end YinShu.TestPrint
