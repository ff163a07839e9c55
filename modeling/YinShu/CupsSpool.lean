import YinShu.CupsJobNames
import YinShu.CupsMedia

/-!
# Submissions and the CUPS queue

The print queue of CUPS is shared: jobs of others come and go and printers go on
and off line between any two commands of the agent. A submission reads the
identifier of its job out of the answer of `lp`, takes the job back when the
printer went off line meanwhile, and finds it again in the list of completed
jobs. What the agent reports is compared with what became of its job.
-/

set_option autoImplicit false

namespace YinShu.CupsSpool
open YinShu.ErrorState YinShu.TextScan YinShu.PrintModel YinShu.Submission YinShu.CupsMedia
open YinShu.CupsJobNames

structure Job where
  id : JobId
  args : List String

/-- `listed` are the completed jobs that CUPS still remembers, `printed` all that ever
completed, and `ours` those that the agent submitted. -/
structure Spool where
  online : String → Bool := fun _ => true
  next : ℕ := 1
  pending : List Job := []
  listed : List JobId := []
  printed : List JobId := []
  ours : List Job := []

/-- What happens to the queue without the agent. -/
inductive Event where
  | submit (printer : Destination) (args : List String)
  | complete (id : JobId)
  | cancel (id : JobId)
  | forget (number : ℕ)
  | setOnline (name : String) (online : Bool)

def Spool.withdraw (s : Spool) (text : String) : Spool :=
  { s with pending := s.pending.filter (fun job => job.id.text != text) }

def Spool.holds (s : Spool) (text : String) : Bool :=
  s.pending.any (fun job => job.id.text == text)

def Spool.act (s : Spool) : Event → Spool
  | .submit printer args =>
    { s with next := s.next+1, pending := s.pending++[⟨⟨printer,s.next⟩,args⟩] }
  | .complete id =>
    if s.holds id.text then
      { s.withdraw id.text with printed := s.printed++[id], listed := s.listed++[id] }
    else s
  | .cancel id => s.withdraw id.text
  | .forget number => { s with listed := s.listed.filter (fun id => id.number != number) }
  | .setOnline name online =>
    { s with online := fun other => if other = name then online else s.online other }

def Spool.acts (s : Spool) (events : List Event) : Spool := events.foldl Spool.act s

abbrev Spooling := EStateM PrintError Spool

def others (events : List Event) : Spooling Unit := modify (·.acts events)

/-- What happens during one submission: what others do before each command of the
agent, and which of its commands fail. -/
structure Course where
  beforeCheck : List Event
  checkUnreadable : Bool
  beforeLp : List Event
  lpFault : Option (Except String CommandOutput)
  afterLp : List Event
  recheckUnreadable : Bool
  beforeCancel : List Event
  cancelFault : Option String

variable (site : Site) (host : CupsHost) (course : Course)

def currentPrinterAvailability (unreadable : Bool) (printerName : String) :
    Spooling CupsPrinterAvailability := do
  let s ← get
  return if unreadable || s.online printerName then .available else .unavailable

def rejectUnavailablePrinter (printerName : String) : Spooling Unit := do
  match ← currentPrinterAvailability course.checkUnreadable printerName with
  | .available => pure ()
  | .unavailable => throw .printerOffline

/-- `lp` on the command line; it accepts the job or says why not. -/
def lp (printerName : String) (args : List String) : Spooling CommandOutput := do
  match course.lpFault,site.destinations.find? (fun printer => printer.name == printerName) with
  | some (.error text),_ => throw (.commandFailed "lp" text)
  | some (.ok output),_ => return { output with success := false }
  | none,none => return ⟨false,"","lp: The printer or class does not exist."⟩
  | none,some printer =>
    let s ← get
    let job : Job := ⟨⟨printer,s.next⟩,args⟩
    set { s.act (.submit printer args) with ours := s.ours++[job] }
    return ⟨true,site.locale.reply job.id,""⟩

/-- `cancel` succeeds on a job that is still in the queue. -/
def cancelCupsJob (jobId : String) : Spooling Unit := do
  let s ← get
  match course.cancelFault with
  | some text => throw (.commandFailed "cancel" text)
  | none =>
    if s.holds jobId then set (s.withdraw jobId)
    else throw (.commandFailed "cancel" "cancel: cancel-job failed: Job is already completed")

def finalizeCupsSubmission (availability : CupsPrinterAvailability) (submission : PrintSubmission)
    (cancel : String → Spooling Unit) : Spooling PrintSubmission :=
  match availability,submission.systemJobId with
  | .available,_ => pure submission
  | .unavailable,none => pure submission
  | .unavailable,some jobId => do
    match ← attempt (cancel jobId) with
    | .ok _ => throw .printerOffline
    | .error _ => return submission

/-- The part that `print_pdf` and `print_raw` share, from the call of `lp` on. -/
def submit (printerName backendName : String) (args : List String) :
    Spooling PrintSubmission := do
  others course.beforeLp
  let output ← lp site course printerName args
  if output.success then
    let systemJobId := parseLpJobId output.stdout
    others course.afterLp
    let availability ← currentPrinterAvailability course.recheckUnreadable printerName
    others course.beforeCancel
    finalizeCupsSubmission availability
      ⟨host.submittedAt,backendName,systemJobId,systemJobId.isSome⟩ (cancelCupsJob course)
  else throw (.commandFailed "lp" (trim output.stderr))

def pdfArgs (path : String) (papers : List PaperInfo) (options : PrintOptions) : List String :=
  ["-d",options.printerName,"-n",toString (max options.copies 1),"-o",
    "media="++cupsMediaOption (resolvePaperForPrint papers options.paper),path]

def cupsPrintPdf (backendName path : String) (listPapers : Except PrintError (List PaperInfo))
    (options : PrintOptions) : Spooling PrintSubmission := do
  ofExcept (ensurePrinterExists host options.printerName)
  others course.beforeCheck
  rejectUnavailablePrinter course options.printerName
  let papers ← ofExcept listPapers
  submit site host course options.printerName backendName (pdfArgs path papers options)

def rawArgs (path : String) (options : RawPrintOptions) : List String :=
  ["-d",options.printerName,"-o","raw",path]

/-- `written` is how the writing of the temporary file ends. -/
def cupsPrintRaw (path : String) (written : Except PrintError Unit) (options : RawPrintOptions) :
    Spooling PrintSubmission := do
  ofExcept (ensurePrinterExists host options.printerName)
  others course.beforeCheck
  rejectUnavailablePrinter course options.printerName
  ofExcept written
  submit site host course options.printerName host.rawBackendName (rawArgs path options)

def trackCupsSubmission (s : Spool) (fault : Option (Except String CommandOutput))
    (submission : PrintSubmission) : PrintTrackingOutcome :=
  match submission.systemJobId with
  | none => .unknown "CUPS did not expose a print job id"
  | some jobId =>
    match fault with
    | some (.error text) => .unknown text
    | some (.ok output) => .unknown (trim output.stderr)
    | none =>
      if completedJobsContainsJob (completedText site s.listed) jobId then
        .completed "CUPS reports the print job as completed"
      else .unknown "CUPS job status was no longer available"

/-- Numbers are given out once, a pending job is not printed yet, and only printed jobs
are listed as completed. -/
structure Spool.Inv (s : Spool) : Prop where
  pendingNumber : ∀ job ∈ s.pending, job.id.number < s.next
  printedNumber : ∀ id ∈ s.printed, id.number < s.next
  unprinted : ∀ job ∈ s.pending, job.id ∉ s.printed
  listed : ∀ id ∈ s.listed, id ∈ s.printed

/-- The job left the queue without being printed. -/
def Spool.Gone (s : Spool) (id : JobId) : Prop :=
  id.number < s.next ∧ id ∉ s.printed ∧ ∀ job ∈ s.pending, job.id ≠ id

section Events

variable {s : Spool} {id : JobId}

theorem mem_withdraw {text : String} {job : Job} :
    job ∈ (s.withdraw text).pending ↔ job ∈ s.pending ∧ job.id.text ≠ text := by
  simp [Spool.withdraw]

theorem holds_text : s.holds id.text = true ↔ ∃ job ∈ s.pending, job.id = id := by
  simp [Spool.holds,text_inj]

theorem Spool.Inv.withdraw (h : s.Inv) (text : String) : (s.withdraw text).Inv where
  pendingNumber job hm := h.pendingNumber job (mem_withdraw.mp hm).1
  printedNumber := h.printedNumber
  unprinted job hm := h.unprinted job (mem_withdraw.mp hm).1
  listed := h.listed

theorem inv_submit (h : s.Inv) (printer : Destination) (args : List String) :
    (s.act (.submit printer args)).Inv where
  pendingNumber job hm := by
    rcases List.mem_append.mp hm with hm | hm
    · exact Nat.lt_succ_of_lt (h.pendingNumber job hm)
    · rw [List.mem_singleton.mp hm]
      exact Nat.lt_succ_self _
  printedNumber id hm := Nat.lt_succ_of_lt (h.printedNumber id hm)
  unprinted job hm hp := by
    rcases List.mem_append.mp hm with hm | hm
    · exact h.unprinted job hm hp
    · rw [List.mem_singleton.mp hm] at hp
      exact Nat.lt_irrefl _ (h.printedNumber _ hp)
  listed := h.listed

theorem inv_complete (h : s.Inv) (hh : s.holds id.text = true) :
    ({ s.withdraw id.text with printed := s.printed++[id], listed := s.listed++[id] } : Spool).Inv
    where
  pendingNumber job hm := h.pendingNumber job (mem_withdraw.mp hm).1
  printedNumber other hm := by
    rcases List.mem_append.mp hm with hm | hm
    · exact h.printedNumber other hm
    · obtain ⟨job,hjob,rfl⟩ := holds_text.mp hh
      rw [List.mem_singleton.mp hm]
      exact h.pendingNumber job hjob
  unprinted job hm hp := by
    obtain ⟨hpending,htext⟩ := mem_withdraw.mp hm
    rcases List.mem_append.mp hp with hp | hp
    · exact h.unprinted job hpending hp
    · exact htext (text_inj.mpr (List.mem_singleton.mp hp))
  listed other hm := by
    rcases List.mem_append.mp hm with hm | hm
    · exact List.mem_append_left _ (h.listed other hm)
    · exact List.mem_append_right _ hm

theorem Spool.Inv.act (h : s.Inv) (event : Event) : (s.act event).Inv := by
  cases event with
  | submit printer args => exact inv_submit h printer args
  | complete id =>
    simp only [Spool.act]
    split
    · case isTrue hh => exact inv_complete h hh
    · exact h
  | cancel id => exact h.withdraw id.text
  | forget number =>
    exact ⟨h.pendingNumber,h.printedNumber,h.unprinted,
      fun id hm => h.listed id (List.mem_filter.mp hm).1⟩
  | setOnline name online => exact ⟨h.pendingNumber,h.printedNumber,h.unprinted,h.listed⟩

theorem Spool.Gone.act (h : s.Gone id) (event : Event) : (s.act event).Gone id := by
  obtain ⟨hnumber,hprinted,hpending⟩ := h
  cases event with
  | submit printer args =>
    refine ⟨Nat.lt_succ_of_lt hnumber,hprinted,fun job hm => ?_⟩
    rcases List.mem_append.mp hm with hm | hm
    · exact hpending job hm
    · rintro rfl
      rw [List.mem_singleton.mp hm] at hnumber
      exact Nat.lt_irrefl _ hnumber
  | complete other =>
    simp only [Spool.act]
    split
    · case isTrue hh =>
      refine ⟨hnumber,fun hm => ?_,fun job hm => hpending job (mem_withdraw.mp hm).1⟩
      rcases List.mem_append.mp hm with hm | hm
      · exact hprinted hm
      · obtain ⟨job,hjob,hid⟩ := holds_text.mp hh
        exact hpending job hjob (hid.trans (List.mem_singleton.mp hm).symm)
    · exact ⟨hnumber,hprinted,hpending⟩
  | cancel other => exact ⟨hnumber,hprinted,fun job hm => hpending job (mem_withdraw.mp hm).1⟩
  | forget number => exact ⟨hnumber,hprinted,hpending⟩
  | setOnline name online => exact ⟨hnumber,hprinted,hpending⟩

theorem act_ours (event : Event) : (s.act event).ours = s.ours := by
  cases event with
  | complete id =>
    simp only [Spool.act]
    split <;> rfl
  | submit _ _ | cancel _ | forget _ | setOnline _ _ => rfl

theorem acts_ours (events : List Event) : (s.acts events).ours = s.ours := by
  induction events generalizing s with
  | nil => rfl
  | cons event events ih => exact ih.trans (act_ours event)

theorem Spool.Inv.acts (h : s.Inv) (events : List Event) : (s.acts events).Inv := by
  induction events generalizing s with
  | nil => exact h
  | cons event events ih => exact ih (h.act event)

theorem Spool.Gone.acts (h : s.Gone id) (events : List Event) : (s.acts events).Gone id := by
  induction events generalizing s with
  | nil => exact h
  | cons event events ih => exact ih (h.act event)

end Events

/-- The submitted job is the agent's, and the submission names it where it names any. -/
def Placed (s t : Spool) (job : Job) (submission : PrintSubmission) : Prop :=
  t.Inv ∧ t.ours = s.ours++[job] ∧
    (submission.systemJobId = some job.id.text ∨ submission.systemJobId = none) ∧
    (site.locale = .english → submission.systemJobId = some job.id.text)

/-- Either nothing was submitted, or it was taken back before it was printed. -/
def Unprinted (s t : Spool) (args : List String) (error : PrintError) : Prop :=
  t.Inv ∧ (t.ours = s.ours ∨ error = .printerOffline ∧
    ∃ job : Job, job.args = args ∧ t.ours = s.ours++[job] ∧ t.Gone job.id)

section Submitting

variable {site host course} {s : Spool} {job : Job}

theorem others_rule (events : List Event) : Ensures (others events) s
    (fun _ t => t = s.acts events) (fun _ _ => False) :=
  ensures_modify rfl

theorem currentPrinterAvailability_rule (unreadable : Bool) (printerName : String) :
    Ensures (currentPrinterAvailability unreadable printerName) s (fun _ t => t = s)
      (fun _ _ => False) :=
  ensures_get_bind (ensures_pure rfl)

theorem rejectUnavailablePrinter_rule (printerName : String) :
    Ensures (rejectUnavailablePrinter course printerName) s (fun _ t => t = s)
      (fun _ t => t = s) := by
  refine Ensures.bind (currentPrinterAvailability_rule _ _) ?_ (fun _ _ h => h.elim)
  rintro availability _ rfl
  cases availability with
  | available => exact ensures_pure rfl
  | unavailable => exact ensures_throw rfl

/-- Whether `lp` puts a job into the queue is what its exit status says. -/
theorem lp_rule (printerName : String) (args : List String) :
    Ensures (lp site course printerName args) s
      (fun output t => output.success = false ∧ t = s ∨
        ∃ printer : Destination, printer.name = printerName ∧
          output = ⟨true,site.locale.reply ⟨printer,s.next⟩,""⟩ ∧
          t = { s.act (.submit printer args) with ours := s.ours++[⟨⟨printer,s.next⟩,args⟩] })
      (fun _ t => t = s) := by
  unfold lp
  split
  · exact ensures_throw rfl
  · exact ensures_pure (Or.inl ⟨rfl,rfl⟩)
  · exact ensures_pure (Or.inl ⟨rfl,rfl⟩)
  · case h_4 printer _ hfind =>
    have hname : printer.name = printerName := by simpa using List.find?_some hfind
    exact ensures_get_bind (ensures_modify_bind (ensures_pure (Or.inr ⟨printer,hname,rfl,rfl⟩)))

/-- A cancelled job is gone for good; a job that could not be cancelled is unaffected. -/
theorem cancelCupsJob_rule (h : s.Inv) (id : JobId) :
    Ensures (cancelCupsJob course id.text) s (fun _ t => t.Inv ∧ t.ours = s.ours ∧ t.Gone id)
      (fun _ t => t = s) := by
  unfold cancelCupsJob
  refine ensures_get_bind ?_
  cases course.cancelFault with
  | some text => exact ensures_throw rfl
  | none =>
    by_cases hh : s.holds id.text
    · simp only [if_pos hh]
      obtain ⟨job,hjob,rfl⟩ := holds_text.mp hh
      refine ensures_modify ⟨h.withdraw _,rfl,h.pendingNumber job hjob,h.unprinted job hjob,?_⟩
      exact fun other ho heq => (mem_withdraw.mp ho).2 (text_inj.mpr heq)
    · simp only [if_neg hh]
      exact ensures_throw rfl

theorem Placed.acts {submission : PrintSubmission} {t : Spool}
    (h : Placed site s t job submission) (events : List Event) :
    Placed site s (t.acts events) job submission :=
  ⟨h.1.acts events,(acts_ours events).trans h.2.1,h.2.2⟩

theorem finalizeCupsSubmission_rule (availability : CupsPrinterAvailability)
    (submission : PrintSubmission) {u : Spool} (h : Placed site s u job submission) :
    Ensures (finalizeCupsSubmission availability submission (cancelCupsJob course)) u
      (fun result t => Placed site s t job result)
      (fun error t => Unprinted s t job.args error) := by
  cases availability with
  | available => exact ensures_pure h
  | unavailable =>
    obtain ⟨hinv,hours,hid | hid,henglish⟩ := h
    · simp only [finalizeCupsSubmission,hid]
      refine Ensures.bind (cancelCupsJob_rule hinv job.id).attempt_ended ?_ (fun _ _ h => h.elim)
      rintro (error | ⟨⟩) t ht
      · rw [show t = u from ht]
        exact ensures_pure ⟨hinv,hours,Or.inl hid,henglish⟩
      · obtain ⟨htinv,htours,hgone⟩ := ht
        exact ensures_throw ⟨htinv,Or.inr ⟨rfl,job,rfl,htours.trans hours,hgone⟩⟩
    · simp only [finalizeCupsSubmission,hid]
      exact ensures_pure ⟨hinv,hours,Or.inr hid,henglish⟩

/-- On the answer that `cancel` gives here, the retraction is the one of a raw submission
with this answer. -/
theorem finalizeCupsSubmission_agrees (availability : CupsPrinterAvailability)
    (submission : PrintSubmission) (cancel : String → Spooling Unit) (u : Spool) :
    attempt (finalizeCupsSubmission availability submission cancel) u =
      (match finalizeCupsSubmission availability submission cancel u with
        | .ok _ t | .error _ t => .ok (Submission.finalizeCupsSubmission
            { host with
              after := availability
              cancel := fun jobId => match cancel jobId u with
                | .ok _ _ => .ok ()
                | .error error _ => .error error } submission) t :
        EStateM.Result PrintError Spool (Except PrintError PrintSubmission)) := by
  unfold attempt
  cases availability with
  | available => rfl
  | unavailable =>
    cases hid : submission.systemJobId with
    | none =>
      simp [finalizeCupsSubmission,Submission.finalizeCupsSubmission,hid,Pure.pure,EStateM.pure]
    | some jobId =>
      simp only [finalizeCupsSubmission,Submission.finalizeCupsSubmission,hid,Bind.bind,
        EStateM.bind,attempt]
      cases cancel jobId u <;> rfl

theorem reply_cases (locale : ServerLocale) (id : JobId) :
    (parseLpJobId (locale.reply id) = some id.text ∨ parseLpJobId (locale.reply id) = none) ∧
      (locale = .english → parseLpJobId (locale.reply id) = some id.text) := by
  cases locale with
  | english => exact ⟨Or.inl (reply_read id),fun _ => reply_read id⟩
  | other text silent => exact ⟨Or.inr (silent_read silent),by simp⟩

theorem accepted_placed (site : Site) (host : CupsHost) {u : Spool} (hu : u.Inv)
    (hours : u.ours = s.ours) (printer : Destination) (backendName : String) (args : List String) :
    Placed site s { u.act (.submit printer args) with ours := u.ours++[⟨⟨printer,u.next⟩,args⟩] }
      ⟨⟨printer,u.next⟩,args⟩
      ⟨host.submittedAt,backendName,parseLpJobId (site.locale.reply ⟨printer,u.next⟩),
        (parseLpJobId (site.locale.reply ⟨printer,u.next⟩)).isSome⟩ := by
  have h := inv_submit hu printer args
  refine ⟨⟨h.pendingNumber,h.printedNumber,h.unprinted,h.listed⟩,?_,reply_cases _ _⟩
  rw [hours]

theorem submit_rule {u : Spool} (hu : u.Inv) (hours : u.ours = s.ours)
    (printerName backendName : String) (args : List String) :
    Ensures (submit site host course printerName backendName args) u
      (fun submission t => ∃ job, job.id.printer.name = printerName ∧ job.args = args ∧
        Placed site s t job submission)
      (fun error t => Unprinted s t args error) := by
  refine Ensures.bind (others_rule course.beforeLp) ?_ (fun _ _ h => h.elim)
  rintro ⟨⟩ _ rfl
  have hs : (u.acts course.beforeLp).Inv := hu.acts _
  have hours : (u.acts course.beforeLp).ours = s.ours := (acts_ours _).trans hours
  refine Ensures.bind (lp_rule printerName args) ?_ ?_
  · rintro output t (⟨hfailed,rfl⟩ | ⟨printer,hname,rfl,rfl⟩)
    · simp only [hfailed,Bool.false_eq_true,if_false]
      exact ensures_throw ⟨hs,Or.inl hours⟩
    · simp only [if_true]
      refine Ensures.bind (others_rule course.afterLp) ?_ (fun _ _ h => h.elim)
      rintro ⟨⟩ _ rfl
      refine Ensures.bind (currentPrinterAvailability_rule _ _) ?_ (fun _ _ h => h.elim)
      rintro availability _ rfl
      refine Ensures.bind (others_rule course.beforeCancel) ?_ (fun _ _ h => h.elim)
      rintro ⟨⟩ _ rfl
      have hplaced := accepted_placed site host hs hours printer backendName args
      refine (finalizeCupsSubmission_rule availability _
        ((hplaced.acts course.afterLp).acts course.beforeCancel)).mono ?_ ?_
      · exact fun result u hu => ⟨_,hname,rfl,hu⟩
      · exact fun error u hu => hu
  · rintro error t rfl
    exact ⟨hs,Or.inl hours⟩

end Submitting

/-- The agent's job is in the queue with these options; tracking it reports completion
only of this very job, and in English whenever CUPS still lists it. -/
def ReportedDone (s t : Spool) (args : List String) (submission : PrintSubmission) : Prop :=
  t.Inv ∧ ∃ job : Job, job.args = args ∧ t.ours = s.ours++[job] ∧ ∀ later,
    (∀ fault message, trackCupsSubmission site (t.acts later) fault submission =
      .completed message → job.id ∈ (t.acts later).printed) ∧
    (site.locale = .english →
      ((∃ message, trackCupsSubmission site (t.acts later) none submission = .completed message) ↔
        job.id ∈ (t.acts later).listed))

/-- No job of the agent is printed, now or later, whatever happens to the queue. -/
def ReportedFailed (s t : Spool) (error : PrintError) : Prop :=
  t.Inv ∧ (t.ours = s.ours ∨ error = .printerOffline ∧
    ∃ job : Job, t.ours = s.ours++[job] ∧ ∀ later, job.id ∉ (t.acts later).printed)

section Reports

variable {site host course} {s t : Spool} {job : Job} {submission : PrintSubmission}

theorem tracked_completed {id : JobId} (hid : submission.systemJobId = some id.text)
    (fault : Option (Except String CommandOutput)) :
    (∃ message, trackCupsSubmission site s fault submission = .completed message) ↔
      fault = none ∧ id ∈ s.listed := by
  unfold trackCupsSubmission
  rw [hid,← completed_read site s.listed id]
  cases fault with
  | some fault => cases fault <;> simp
  | none =>
    cases hc : completedJobsContainsJob (completedText site s.listed) id.text <;> simp [hc]

theorem Placed.reported (h : Placed site s t job submission) :
    ReportedDone site s t job.args submission := by
  obtain ⟨hinv,hours,hid,henglish⟩ := h
  refine ⟨hinv,job,rfl,hours,fun later => ⟨fun fault message htrack => ?_,fun hlocale => ?_⟩⟩
  · rcases hid with hid | hid
    · exact (hinv.acts later).listed _ ((tracked_completed hid fault).mp ⟨message,htrack⟩).2
    · simp [trackCupsSubmission,hid] at htrack
  · simpa using tracked_completed (henglish hlocale) none

theorem Unprinted.reported {args : List String} {error : PrintError}
    (h : Unprinted s t args error) : ReportedFailed s t error := by
  obtain ⟨hinv,hours | ⟨herror,job,_,hours,hgone⟩⟩ := h
  · exact ⟨hinv,Or.inl hours⟩
  · exact ⟨hinv,Or.inr ⟨herror,job,hours,fun later => (hgone.acts later).2.1⟩⟩

theorem reported_failed_before {error : PrintError} (h : s.Inv) (events : List Event) :
    ReportedFailed s (s.acts events) error :=
  ⟨h.acts events,Or.inl (acts_ours events)⟩

/-- What both ways of printing do before anything of the agent is in the queue. -/
theorem checked_rule {m : Spooling PrintSubmission} {Q : PrintSubmission → Spool → Prop}
    (h : s.Inv) (printerName : String)
    (hm : Ensures m (s.acts course.beforeCheck) Q (fun error t => ReportedFailed s t error)) :
    Ensures (do
      ofExcept (ensurePrinterExists host printerName)
      others course.beforeCheck
      rejectUnavailablePrinter course printerName
      m) s Q (fun error t => ReportedFailed s t error) := by
  refine Ensures.bind (ofExcept_rule _ s) ?_ ?_
  · rintro ⟨⟩ _ ⟨_,rfl⟩
    refine Ensures.bind (others_rule _) ?_ (fun _ _ h => h.elim)
    rintro ⟨⟩ _ rfl
    refine Ensures.bind (rejectUnavailablePrinter_rule _) ?_ ?_
    · rintro ⟨⟩ _ rfl
      exact hm
    · rintro error _ rfl
      exact reported_failed_before h course.beforeCheck
  · rintro error _ ⟨_,rfl⟩
    exact reported_failed_before h []

/-- Reading what a submission needs, and then the submission itself. -/
theorem submitted_rule {α : Type} (h : s.Inv) (needed : Except PrintError α)
    (printerName backendName : String) (args : α → List String) :
    Ensures (do
      let a ← ofExcept needed
      submit site host course printerName backendName (args a)) (s.acts course.beforeCheck)
      (fun submission t => ∃ a, needed = .ok a ∧ ReportedDone site s t (args a) submission)
      (fun error t => ReportedFailed s t error) := by
  refine Ensures.bind (ofExcept_rule _ _) ?_ ?_
  · rintro a _ ⟨ha,rfl⟩
    refine (submit_rule (h.acts _) (acts_ours _) printerName backendName (args a)).mono ?_ ?_
    · rintro submission t ⟨job,_,hargs,hplaced⟩
      exact ⟨a,ha,hargs ▸ hplaced.reported⟩
    · exact fun error t ht => ht.reported
  · rintro error _ ⟨_,rfl⟩
    exact reported_failed_before h course.beforeCheck

end Reports

/-- The printer goes off line after the job was accepted, and the job is taken back. -/
def offlineCourse : Course where
  beforeCheck := []
  checkUnreadable := false
  beforeLp := []
  lpFault := none
  afterLp := [.setOnline "label" false]
  recheckUnreadable := false
  beforeCancel := []
  cancelFault := none

def labelPrinter : Destination where
  name := "label"
  nonempty := by decide
  plain c hc := by
    have hall : "label".toList.all (fun c => !isWhitespace c) = true := by decide
    simpa using List.all_eq_true.mp hall c hc

def labelSite : Site where
  destinations := [labelPrinter]
  locale := .english
  details _ := " yinshu 1024 Mon 01 Jan 2024".toList
  oneLine _ := by decide +kernel

def labelHost : CupsHost where
  rawBackendName := "linux-cups-raw"
  listPrinters := .ok [⟨"label",true,none,none,none,none,none,.available⟩]
  before := .available
  uuid := "7d444840-9dc0-41d1-b245-5ffdce74fad2"
  create := none
  writeAll := none
  flush := none
  lp := .error ""
  after := .available
  cancel _ := .ok ()
  submittedAt := "2024-01-01T00:00:00Z"

theorem empty_inv : Spool.Inv {} where
  pendingNumber := by simp
  printedNumber := by simp
  unprinted := by simp
  listed := by simp

end YinShu.CupsSpool
