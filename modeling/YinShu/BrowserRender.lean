import YinShu.BrowserLaunch
import YinShu.FallbackChain
import YinShu.FilteringProxy

/-!
# One rendering by an installed browser

The driver runs in a blocking thread while its caller waits for the deadline
and the proxy serves the page. Before each reading of the clock or of the
cancellation flag, time may pass, the caller may cancel, and any requests may
have been served. The record of the calls into the browser and of the page
resources refused since the tracker was cleared is history; no step reads it.
-/

set_option autoImplicit false

namespace YinShu.BrowserRender
open YinShu.ErrorState YinShu.HtmlRender YinShu.WebUrl YinShu.ResourcePolicy
open YinShu.FilteringProxy YinShu.FallbackChain

def millis (n : ℕ) : ℕ := n*1000000

def waitPollInterval : ℕ := millis 10

inductive Action where
  | newTab
  | navigateTo
  | waitUntilNavigated
  | printToPdf
  | write
  deriving DecidableEq, Repr

/-- A call into the browser, or the final write: the last reading of the clock before it,
the time it may take, and whether the rendering had been cancelled by then. -/
structure Call where
  action : Action
  startedAt : ℕ
  allowance : ℕ
  cancelled : Bool

structure Session where
  now : ℕ
  cancelled : Bool := false
  looks : ℕ := 0
  tracker : RejectedResourceTracker := {}
  network : List Event := []
  calls : List Call := []
  refused : List String := []

/-- What happens around the driver, up to its next look at the clock or the flag. -/
structure Surroundings where
  proxy : ProxyEnv
  state : ProxyState
  elapsed : ℕ → ℕ
  cancels : ℕ → Bool
  requests : ℕ → List (Channel × Request)

structure Control where
  deadline : ℕ
  timeoutMs : UInt64
  cdpOperationTimeout : ℕ

inductive BrowserKind where
  | edge
  | chrome
  | chromium
  deriving DecidableEq, Repr

def BrowserKind.label : BrowserKind → String
  | .edge => "edge"
  | .chrome => "chrome"
  | .chromium => "chromium"

structure BrowserExecutable where
  kind : BrowserKind
  path : String
  label : String
  deriving DecidableEq, Repr

/-- The browsers that were found, and what the library answers to each call. An instant
past `latest` cannot be represented. -/
structure BrowserHost where
  available : Except (List String) (List BrowserExecutable)
  searchedText : List String → String
  launch : BrowserExecutable → ℕ → BrowserLaunch.Attempt PUnit
  proxyStart : Option String
  profile : Option String
  newTab : Option String
  navigateTo : Option String
  waitUntilNavigated : Option String
  printToPdf : Option String
  write : Option String
  latest : ℕ

abbrev Render := EStateM HtmlRenderError Session

variable (outside : Surroundings) (control : Control) (host : BrowserHost)

/-- The resource of a request that is refused to the page, as the tracker records it. -/
def refusal (tracker : RejectedResourceTracker) (channel : Channel) (request : Request)
    (history : List Event) : Option String :=
  match channel,(route outside.proxy outside.state request history).1 with
  | .proxied,.error (.blockedResource resource) =>
    if tracker.belongsToPage outside.proxy.parsers request then some resource else none
  | _,_ => none

def arrive (s : Session) (arrival : Channel × Request) : Session :=
  let served := serve outside.proxy outside.state s.tracker arrival.1 arrival.2 s.network
  { s with
    tracker := served.2.1
    network := s.network++served.2.2
    refused := s.refused++(refusal outside s.tracker arrival.1 arrival.2 s.network).toList }

def Session.pass (s : Session) : Session :=
  { (outside.requests s.looks).foldl (arrive outside) s with
    now := s.now+outside.elapsed s.looks
    cancelled := s.cancelled || outside.cancels s.looks
    looks := s.looks+1 }

def timeoutError : HtmlRenderError := .timeout control.timeoutMs

def isCancelled : Render Bool := do
  modify (Session.pass outside)
  return (← get).cancelled

def instantNow : Render ℕ := do
  modify (Session.pass outside)
  return (← get).now

def cancel : Render PUnit := modify (fun s => { s with cancelled := true })

def giveUp {α : Type} : Render α := do
  cancel
  throw (timeoutError control)

def checkActive : Render PUnit := do
  if ← isCancelled outside then giveUp control
  else if control.deadline ≤ (← instantNow outside) then giveUp control
  else pure ⟨⟩

def remaining : Render ℕ := do
  checkActive outside control
  let left := control.deadline-(← instantNow outside)
  if left = 0 then giveUp control else pure left

def beforeCdpOperations (requestCount : ℕ) : Render ℕ := do
  if (← remaining outside control) < control.cdpOperationTimeout*requestCount then giveUp control
  else pure control.cdpOperationTimeout

/-- The loop of `wait`; each turn sleeps for at least one tick. -/
def waitLoop (waitDeadline : ℕ) : ℕ → Render PUnit
  | 0 => pure ⟨⟩
  | fuel+1 => do
    checkActive outside control
    let now ← instantNow outside
    if waitDeadline ≤ now then pure ⟨⟩
    else do
      let sleepFor := min (min (← remaining outside control) (waitDeadline-now)) waitPollInterval
      modify (fun s => { s with now := s.now+sleepFor })
      waitLoop waitDeadline fuel

def wait (duration : ℕ) : Render PUnit := do
  let now ← instantNow outside
  let waitDeadline := if now+duration ≤ host.latest then now+duration else control.deadline
  waitLoop outside control waitDeadline (waitDeadline-now+1)

/-- A call into the browser with its outcome. -/
def call (action : Action) (allowance : ℕ) (failure : Option HtmlRenderError) : Render PUnit := do
  modify (fun s => { s with calls := s.calls++[⟨action,s.now,allowance,s.cancelled⟩] })
  match failure with
  | some error => throw error
  | none => pure ⟨⟩

def launchFirstAvailable (candidates : List BrowserExecutable) : Render BrowserExecutable := do
  match ← firstOf (fun _ executable => do
    match ← attempt (remaining outside control) with
    | .error error => throw error
    | .ok timeout =>
      match host.launch executable timeout with
      | .ok browser => pure (.ok browser)
      | .failed error => pure (.error (executable.path++": "++error))
      | .timedOut timeoutMs => throw (.timeout (UInt64.ofNat timeoutMs))) candidates [] with
  | .ok (_,executable) => pure executable
  | .error failures => throw (.rendererUnavailable (host.searchedText failures))

def launchHeadlessBrowser : Render BrowserExecutable :=
  match host.available with
  | .error searched => throw (.rendererUnavailable (host.searchedText searched))
  | .ok candidates => launchFirstAvailable outside control host candidates

def clearRejected : Render PUnit :=
  modify (fun s => { s with
    tracker := { s.tracker with rejectedResource := none }, refused := [] })

/-- `InstalledBrowserDriver::render`. -/
def drive (waitMs : UInt64) : Render PUnit := do
  let _ ← launchHeadlessBrowser outside control host
  let cdpOperationTimeout ← beforeCdpOperations outside control 1
  let newTabWaitTimeout := (← remaining outside control)-cdpOperationTimeout
  call .newTab newTabWaitTimeout (host.newTab.map .navigation)
  let _ ← beforeCdpOperations outside control 2
  clearRejected
  call .navigateTo (control.cdpOperationTimeout*2) (host.navigateTo.map .navigation)
  call .waitUntilNavigated (← remaining outside control)
    (host.waitUntilNavigated.map .navigation)
  wait outside control host (millis waitMs.toNat)
  let _ ← beforeCdpOperations outside control 2
  call .printToPdf (control.cdpOperationTimeout*2) (host.printToPdf.map .pdfExport)
  checkActive outside control
  call .write 0 (host.write.map .io)

def targetUrl (inlineUrl : Url) : HtmlSource → Url
  | .url url => url
  | .inline _ => inlineUrl

/-- A step of the file system or the network, with its error. -/
def orIo (failure : Option String) : Render PUnit :=
  match failure with
  | some error => throw (.io error)
  | none => pure ⟨⟩

/-- The end of a rendering whose driver has written the document. -/
def deliver (outputPath : TempFile.TempPath) : Render HtmlRenderResult := do
  modify (Session.pass outside)
  match (← get).tracker.rejectedResource with
  | some resource => throw (.blockedResource resource)
  | none =>
    checkActive outside control
    pure ⟨"chromium",outputPath⟩

/-- `BrowserHtmlRenderer::render`. The caller may have stopped waiting before the driver
returns. -/
def render (request : HtmlRenderRequest) (inlineUrl : Url) (late : Bool) :
    Render HtmlRenderResult := do
  orIo host.proxyStart
  modify (fun s => { s with
    tracker := { s.tracker with pageUrl := some (targetUrl inlineUrl request.source) } })
  orIo host.profile
  let _ ← beforeCdpOperations outside control 1
  let _ ← remaining outside control
  let result ← attempt (drive outside control host request.waitMs)
  if late then giveUp control
  else do
    ofExcept result
    deliver outside control request.outputPath

section Passing

variable {outside : Surroundings} {control : Control} {host : BrowserHost} {s t u : Session}

/-- The tracker holds the first resource that was refused to the page. -/
def Tracked (s : Session) : Prop := s.tracker.rejectedResource = s.refused.head?

/-- From one session to a later one without a call into the browser. -/
structure Later (s t : Session) : Prop where
  now : s.now ≤ t.now
  sticky : s.cancelled = true → t.cancelled = true
  calls : t.calls = s.calls
  tracked : Tracked s → Tracked t

theorem Later.refl (s : Session) : Later s s := ⟨le_rfl,id,rfl,id⟩

theorem Later.trans (h : Later s t) (h' : Later t u) : Later s u :=
  ⟨h.now.trans h'.now,h'.sticky ∘ h.sticky,h'.calls.trans h.calls,h'.tracked ∘ h.tracked⟩

theorem serve_tracker (tracker : RejectedResourceTracker) (channel : Channel) (request : Request)
    (history : List Event) :
    (serve outside.proxy outside.state tracker channel request history).2.1.rejectedResource =
      tracker.rejectedResource.or (refusal outside tracker channel request history) := by
  cases channel with
  | inlineTunnel r => simp [serve,refusal]
  | proxied =>
    rcases hr : route outside.proxy outside.state request history with ⟨answer,events⟩
    simp only [serve,handle,refusal,hr]
    cases answer with
    | ok response => simp
    | error error =>
      cases error with
      | blockedResource resource =>
        simp only [RejectedResourceTracker.record]
        split_ifs <;> cases tracker.rejectedResource <;> rfl
      | _ => simp

theorem arrive_tracked (h : Tracked s) (arrival : Channel × Request) :
    Tracked (arrive outside s arrival) := by
  unfold Tracked arrive
  simp only [serve_tracker]
  rw [h,List.head?_append]
  cases refusal outside s.tracker arrival.1 arrival.2 s.network <;> rfl

theorem arrivals_calls (arrivals : List (Channel × Request)) (s : Session) :
    (arrivals.foldl (arrive outside) s).calls = s.calls := by
  induction arrivals generalizing s with
  | nil => rfl
  | cons arrival arrivals ih => exact ih _

theorem arrivals_tracked (arrivals : List (Channel × Request)) (h : Tracked s) :
    Tracked (arrivals.foldl (arrive outside) s) := by
  induction arrivals generalizing s with
  | nil => exact h
  | cons arrival arrivals ih => exact ih (arrive_tracked h arrival)

theorem pass_later (s : Session) : Later s (s.pass outside) where
  now := Nat.le_add_right _ _
  sticky h := by simp [Session.pass,h]
  calls := arrivals_calls _ _
  tracked h := arrivals_tracked (outside.requests s.looks) h

/-- A passage of time and requests; the caller's cancellation is seen by whoever looks. -/
theorem isCancelled_rule (s : Session) :
    Ensures (isCancelled outside) s (fun b t => Later s t ∧ b = t.cancelled)
      (fun _ _ => False) := ⟨pass_later s,rfl⟩

theorem instantNow_rule (s : Session) :
    Ensures (instantNow outside) s (fun n t => Later s t ∧ n = t.now) (fun _ _ => False) :=
  ⟨pass_later s,rfl⟩

theorem giveUp_rule {α : Type} (s : Session) :
    Ensures (giveUp control : Render α) s (fun _ _ => False)
      (fun e t => Later s t ∧ e = timeoutError control) :=
  ⟨⟨le_rfl,fun _ => rfl,rfl,id⟩,rfl⟩

/-- A step that gives up does so later than the program before it. -/
theorem giveUp_after {α : Type} {Q : α → Session → Prop} (h : Later s t) :
    Ensures (giveUp control : Render α) t Q (fun e u => Later s u ∧ e = timeoutError control) :=
  (giveUp_rule t).mono (fun _ _ hf => hf.elim) (fun _ _ hu => ⟨h.trans hu.1,hu.2⟩)

theorem checkActive_rule (s : Session) :
    Ensures (checkActive outside control) s
      (fun _ t => Later s t ∧ s.cancelled = false ∧ t.now < control.deadline)
      (fun e t => Later s t ∧ e = timeoutError control) := by
  refine (isCancelled_rule s).bind ?_ (fun _ _ hf => hf.elim)
  rintro b t ⟨ht,rfl⟩
  by_cases hc : t.cancelled = true
  · rw [if_pos hc]
    exact giveUp_after ht
  · rw [if_neg hc]
    refine (instantNow_rule t).bind ?_ (fun _ _ hf => hf.elim)
    rintro n u ⟨hu,rfl⟩
    split_ifs with hd
    · exact giveUp_after (ht.trans hu)
    · refine ensures_pure ⟨ht.trans hu,?_,Nat.lt_of_not_le hd⟩
      by_contra hs
      exact hc (ht.sticky (by simpa using hs))

theorem remaining_rule (s : Session) :
    Ensures (remaining outside control) s
      (fun left t => Later s t ∧ s.cancelled = false ∧ 0 < left ∧ t.now+left = control.deadline)
      (fun e t => Later s t ∧ e = timeoutError control) := by
  refine (checkActive_rule s).bind ?_ (fun _ _ h => h)
  rintro - t ⟨ht,hc,-⟩
  refine (instantNow_rule t).bind ?_ (fun _ _ hf => hf.elim)
  rintro n u ⟨hu,rfl⟩
  simp only []
  split_ifs with hl
  · exact giveUp_after (ht.trans hu)
  · exact ensures_pure ⟨ht.trans hu,hc,by omega,by omega⟩

theorem beforeCdpOperations_rule (requestCount : ℕ) (s : Session) :
    Ensures (beforeCdpOperations outside control requestCount) s
      (fun timeout t => Later s t ∧ s.cancelled = false ∧ timeout = control.cdpOperationTimeout ∧
        t.now < control.deadline ∧
        t.now+control.cdpOperationTimeout*requestCount ≤ control.deadline)
      (fun e t => Later s t ∧ e = timeoutError control) := by
  refine (remaining_rule s).bind ?_ (fun _ _ h => h)
  rintro left t ⟨ht,hc,hl,hd⟩
  split_ifs with hr
  · exact giveUp_after ht
  · exact ensures_pure ⟨ht,hc,rfl,by omega,by omega⟩

theorem sleep_later (s : Session) (ticks : ℕ) : Later s { s with now := s.now+ticks } :=
  ⟨Nat.le_add_right _ _,id,rfl,id⟩

/-- The fuel covers the ticks that are left, and each turn takes at least one. -/
theorem waitLoop_rule (waitDeadline fuel : ℕ) (s : Session) (hf : waitDeadline-s.now < fuel) :
    Ensures (waitLoop outside control waitDeadline fuel) s
      (fun _ t => Later s t ∧ waitDeadline ≤ t.now)
      (fun e t => Later s t ∧ e = timeoutError control) := by
  induction fuel generalizing s with
  | zero => omega
  | succ fuel ih =>
    refine (checkActive_rule s).bind ?_ (fun _ _ h => h)
    rintro - t ⟨ht,-,-⟩
    refine (instantNow_rule t).bind ?_ (fun _ _ hf => hf.elim)
    rintro n u ⟨hu,rfl⟩
    split_ifs with hw
    · exact ensures_pure ⟨ht.trans hu,hw⟩
    · refine (remaining_rule u).bind ?_ (fun _ _ h => ⟨(ht.trans hu).trans h.1,h.2⟩)
      rintro left v ⟨hv,-,hl,-⟩
      refine ensures_modify_bind ?_
      have hlater := ((ht.trans hu).trans hv).trans (sleep_later v
        (min (min left (waitDeadline-u.now)) waitPollInterval))
      have hsleep : 0 < min (min left (waitDeadline-u.now)) waitPollInterval := by
        simp only [Nat.lt_min,waitPollInterval,millis]
        omega
      refine (ih _ ?_).mono (fun _ _ h => ⟨hlater.trans h.1,h.2⟩)
        (fun _ _ h => ⟨hlater.trans h.1,h.2⟩)
      have h1 := (ht.trans hu).now
      have h2 := hv.now
      simp only []
      omega

theorem wait_rule (duration : ℕ) (s : Session) :
    Ensures (wait outside control host duration) s
      (fun _ t => Later s t ∧ (s.now+duration ≤ t.now ∨ host.latest < t.now+duration))
      (fun e t => Later s t ∧ e = timeoutError control) := by
  refine (instantNow_rule s).bind ?_ (fun _ _ hf => hf.elim)
  rintro n t ⟨ht,rfl⟩
  simp only []
  refine (waitLoop_rule _ _ t (Nat.lt_succ_self _)).mono ?_ (fun _ _ h => ⟨ht.trans h.1,h.2⟩)
  rintro - u ⟨hu,hd⟩
  refine ⟨ht.trans hu,?_⟩
  have h1 := ht.now
  have h2 := hu.now
  split_ifs at hd with hr <;> omega

end Passing

section Calls

variable {outside : Surroundings} {control : Control} {host : BrowserHost} {s t u : Session}
  {n : ℕ}

def plan : List Action := [.newTab,.navigateTo,.waitUntilNavigated,.printToPdf,.write]

/-- The calls so far are the first of the plan, each with its time before the deadline,
and none follows one that was already cancelled. -/
structure Timely (control : Control) (n : ℕ) (s : Session) : Prop where
  actions : s.calls.map Call.action = plan.take n
  within : ∀ c ∈ s.calls, c.startedAt < control.deadline ∧
    c.startedAt+c.allowance ≤ control.deadline
  seen : ∀ c ∈ s.calls, c.cancelled = true → s.cancelled = true
  once : ∀ c ∈ s.calls.dropLast, c.cancelled = false

theorem Timely.later (h : Timely control n s) (hl : Later s t) : Timely control n t where
  actions := hl.calls ▸ h.actions
  within := hl.calls ▸ h.within
  seen c hc hcc := hl.sticky (h.seen c (hl.calls ▸ hc) hcc)
  once := hl.calls ▸ h.once

theorem Timely.call (h : Timely control n s) (hc : s.cancelled = false) (hl : Later s t)
    {action : Action} (ha : plan[n]? = some action) {allowance : ℕ}
    (hd : t.now < control.deadline) (hw : t.now+allowance ≤ control.deadline) :
    Timely control (n+1)
      { t with calls := t.calls++[⟨action,t.now,allowance,t.cancelled⟩] } := by
  have hnone : ∀ c ∈ t.calls, c.cancelled = false := by
    intro c hm
    by_contra hcc
    have hs := h.seen c (hl.calls ▸ hm) (by simpa using hcc)
    rw [hc] at hs
    cases hs
  refine ⟨?_,?_,?_,?_⟩
  · rw [List.map_append,hl.calls,h.actions,List.take_add_one,ha]
    rfl
  · intro c hm
    rcases List.mem_append.mp hm with hm | hm
    · exact h.within c (hl.calls ▸ hm)
    · rw [List.mem_singleton.mp hm]
      exact ⟨hd,hw⟩
  · intro c hm hcc
    rcases List.mem_append.mp hm with hm | hm
    · rw [hnone c hm] at hcc
      cases hcc
    · rwa [List.mem_singleton.mp hm] at hcc
  · simpa using hnone

def NotBlocked (e : HtmlRenderError) : Prop := ∀ resource, e ≠ .blockedResource resource

theorem timeoutError_notBlocked (control : Control) : NotBlocked (timeoutError control) := by
  simp [NotBlocked,timeoutError]

theorem launchHeadlessBrowser_rule (s : Session) :
    Ensures (launchHeadlessBrowser outside control host) s (fun _ t => Later s t)
      (fun e t => Later s t ∧ NotBlocked e) := by
  unfold launchHeadlessBrowser
  split
  · exact ensures_throw ⟨.refl s,by simp [NotBlocked]⟩
  · rename_i candidates _
    unfold launchFirstAvailable
    refine Ensures.bind (firstOf_invariant (I := Later s) (Q := fun _ _ => True) ?_ candidates [] s
      (.refl s)) ?_ (fun _ _ h => h)
    · intro _ executable t ht
      refine ((remaining_rule t).attempt_ended).bind ?_ (by simp)
      rintro (error|timeout) u hu
      · refine ensures_throw ⟨ht.trans hu.1,?_⟩
        rw [hu.2]
        exact timeoutError_notBlocked control
      · have hl := ht.trans hu.1
        simp only []
        split
        · exact ensures_pure ⟨hl,by simp⟩
        · exact ensures_pure ⟨hl,by simp⟩
        · exact ensures_throw ⟨hl,by simp [NotBlocked]⟩
    · rintro (failures|⟨⟨⟩,executable⟩) t ⟨ht,-⟩
      · exact ensures_throw ⟨ht,by simp [NotBlocked]⟩
      · exact ensures_pure ht

/-- The next call of the plan, after a check that found the rendering uncancelled. -/
theorem call_rule (h : Timely control n s) (hc : s.cancelled = false) (hl : Later s t)
    {action : Action} (ha : plan[n]? = some action) {allowance : ℕ}
    (hd : t.now < control.deadline) (hw : t.now+allowance ≤ control.deadline)
    {failure : Option HtmlRenderError} (hf : ∀ e ∈ failure, NotBlocked e) :
    Ensures (call action allowance failure) t
      (fun _ u => Timely control (n+1) u ∧ u.now = t.now ∧ u.calls =
        t.calls++[⟨action,t.now,allowance,t.cancelled⟩] ∧ u.tracker = t.tracker ∧
          u.refused = t.refused)
      (fun e u => Timely control (n+1) u ∧ NotBlocked e ∧ u.refused = t.refused) := by
  have hn := h.call hc hl ha hd hw
  refine ensures_modify_bind ?_
  cases failure with
  | none => exact ensures_pure ⟨hn,rfl,rfl,rfl,rfl⟩
  | some error => exact ensures_throw ⟨hn,hf error rfl,rfl⟩

/-- How a driver that fails leaves the session. -/
def Failed (control : Control) (e : HtmlRenderError) (t : Session) : Prop :=
  (∃ n, Timely control n t) ∧ NotBlocked e

theorem Timely.failed (h : Timely control n s) {e : HtmlRenderError}
    (ht : Later s t ∧ e = timeoutError control) : Failed control e t :=
  ⟨⟨n,h.later ht.1⟩,ht.2 ▸ timeoutError_notBlocked control⟩

/-- The page had its waiting time between the end of the navigation and the export. -/
def Waited (host : BrowserHost) (waitMs : UInt64) (calls : List Call) : Prop :=
  ∃ before navigated printed written, calls = before++[navigated,printed,written] ∧
    (navigated.startedAt+millis waitMs.toNat ≤ printed.startedAt ∨
      host.latest < printed.startedAt+millis waitMs.toNat)

theorem map_notBlocked {text : Option String} {f : String → HtmlRenderError}
    (hf : ∀ error, NotBlocked (f error)) : ∀ e ∈ text.map f, NotBlocked e := by
  rintro e he
  obtain ⟨error,-,rfl⟩ := Option.map_eq_some_iff.mp he
  exact hf error

theorem clearRejected_later (s : Session) : Later s { s with
    tracker := { s.tracker with rejectedResource := none }, refused := [] } :=
  ⟨le_rfl,id,rfl,fun _ => rfl⟩

theorem drive_rule (waitMs : UInt64) (s : Session) (h : Timely control 0 s) :
    Ensures (drive outside control host waitMs) s
      (fun _ t => Timely control 5 t ∧ Tracked t ∧ Waited host waitMs t.calls)
      (Failed control) := by
  refine (launchHeadlessBrowser_rule s).bind ?_ (fun _ _ hu => ⟨⟨0,h.later hu.1⟩,hu.2⟩)
  intro _ t1 h1
  have hs := h.later h1
  refine (beforeCdpOperations_rule 1 t1).bind ?_ (fun _ _ => hs.failed)
  rintro _ t2 ⟨h2,-,rfl,-,-⟩
  replace hs := hs.later h2
  refine (remaining_rule t2).bind ?_ (fun _ _ => hs.failed)
  rintro left t3 ⟨h3,c3,l3,d3⟩
  refine (call_rule hs c3 h3 rfl (by omega) (by omega)
    (map_notBlocked (by simp [NotBlocked]))).bind ?_ (fun _ _ hu => ⟨⟨1,hu.1⟩,hu.2.1⟩)
  rintro - t4 ⟨hs,-⟩
  refine (beforeCdpOperations_rule 2 t4).bind ?_ (fun _ _ => hs.failed)
  rintro _ t5 ⟨h5,c5,-,d5,w5⟩
  refine ensures_modify_bind ?_
  refine (call_rule hs c5 (h5.trans (clearRejected_later t5)) rfl d5 w5
    (map_notBlocked (by simp [NotBlocked]))).bind ?_ (fun _ _ hu => ⟨⟨2,hu.1⟩,hu.2.1⟩)
  rintro - t6 ⟨hs,-,-,k6,r6⟩
  have hk : Tracked t6 := by rw [Tracked,k6,r6]; rfl
  refine (remaining_rule t6).bind ?_ (fun _ _ => hs.failed)
  rintro left' t7 ⟨h7,c7,l7,d7⟩
  replace hk := h7.tracked hk
  refine (call_rule hs c7 h7 rfl (by omega) (by omega)
    (map_notBlocked (by simp [NotBlocked]))).bind ?_ (fun _ _ hu => ⟨⟨3,hu.1⟩,hu.2.1⟩)
  rintro - t8 ⟨hs,n8,a8,k8,r8⟩
  replace hk : Tracked t8 := by rwa [Tracked,k8,r8]
  refine (wait_rule (millis waitMs.toNat) t8).bind ?_ (fun _ _ => hs.failed)
  rintro - t9 ⟨h9,w9⟩
  replace hs := hs.later h9
  refine (beforeCdpOperations_rule 2 t9).bind ?_ (fun _ _ => hs.failed)
  rintro _ t10 ⟨h10,c10,-,d10,w10⟩
  replace hk := h10.tracked (h9.tracked hk)
  refine (call_rule hs c10 h10 rfl d10 w10
    (map_notBlocked (by simp [NotBlocked]))).bind ?_ (fun _ _ hu => ⟨⟨4,hu.1⟩,hu.2.1⟩)
  rintro - t11 ⟨hs,-,a11,k11,r11⟩
  replace hk : Tracked t11 := by rwa [Tracked,k11,r11]
  refine (checkActive_rule t11).bind ?_ (fun _ _ => hs.failed)
  rintro - t12 ⟨h12,c12,d12⟩
  replace hk := h12.tracked hk
  refine (call_rule hs c12 h12 rfl d12 (Nat.le_of_lt d12)
    (map_notBlocked (by simp [NotBlocked]))).mono ?_ (fun _ _ hu => ⟨⟨5,hu.1⟩,hu.2.1⟩)
  rintro - t13 ⟨hs,-,a13,k13,r13⟩
  have hcalls : t13.calls = t7.calls++[⟨.waitUntilNavigated,t7.now,left',t7.cancelled⟩,
      ⟨.printToPdf,t10.now,control.cdpOperationTimeout*2,t10.cancelled⟩,
      ⟨.write,t12.now,0,t12.cancelled⟩] := by
    rw [a13,h12.calls,a11,h10.calls,h9.calls,a8,List.append_assoc,List.append_assoc]
    rfl
  have h10n := h10.now
  exact ⟨hs,by rwa [Tracked,k13,r13],t7.calls,_,_,_,hcalls,by simp only []; omega⟩

theorem setPageUrl_later (s : Session) (url : Url) :
    Later s { s with tracker := { s.tracker with pageUrl := some url } } :=
  ⟨le_rfl,id,rfl,id⟩

theorem orIo_rule (failure : Option String) (s : Session) :
    Ensures (orIo failure) s (fun _ t => t = s) (fun e t => t = s ∧ NotBlocked e) := by
  cases failure with
  | none => exact ensures_pure rfl
  | some error => exact ensures_throw ⟨rfl,by simp [NotBlocked]⟩

/-- How a rendering that fails leaves the session. -/
def Withheld (control : Control) (e : HtmlRenderError) (t : Session) : Prop :=
  (∃ n, Timely control n t) ∧
    ∀ resource, e = .blockedResource resource → t.refused.head? = some resource

theorem Failed.withheld {e : HtmlRenderError} (h : Failed control e t) : Withheld control e t :=
  ⟨h.1,fun resource he => absurd he (h.2 resource)⟩

theorem deliver_rule (outputPath : TempFile.TempPath) (s : Session) (h : Timely control 5 s)
    (hk : Tracked s) :
    Ensures (deliver outside control outputPath) s
      (fun _ t => ∃ u, Later s u ∧ u.refused = [] ∧ Later u t ∧ t.now < control.deadline)
      (Withheld control) := by
  have hp : Later s (s.pass outside) := pass_later s
  have hkp := hp.tracked hk
  refine ensures_modify_bind (ensures_get_bind ?_)
  split
  · rename_i resource hr
    refine ensures_throw ⟨⟨5,h.later hp⟩,?_⟩
    rintro _ ⟨⟩
    exact hkp.symm.trans hr
  · rename_i hr
    refine (checkActive_rule _).bind ?_ (fun e t hu => ((h.later hp).failed hu).withheld)
    rintro - t ⟨ht,-,hd⟩
    refine ensures_pure ⟨_,hp,?_,ht,hd⟩
    rw [← List.head?_eq_none_iff,← hr,hkp]

/-- A rendering ends well when the driver has made all its calls in time and nothing had
been refused to the page when it was done. -/
theorem render_rule (request : HtmlRenderRequest) (inlineUrl : Url) (late : Bool) (s : Session)
    (h : Timely control 0 s) :
    Ensures (render outside control host request inlineUrl late) s
      (fun _ t => ∃ u, Timely control 5 u ∧ Waited host request.waitMs u.calls ∧
        u.refused = [] ∧ Later u t ∧ t.now < control.deadline)
      (Withheld control) := by
  refine (orIo_rule _ s).bind ?_ (fun e t hu => ⟨⟨0,hu.1 ▸ h⟩,fun _ he => absurd he (hu.2 _)⟩)
  rintro - s rfl
  refine ensures_modify_bind ?_
  replace h := h.later (setPageUrl_later s (targetUrl inlineUrl request.source))
  refine (orIo_rule _ _).bind ?_ (fun e t hu => ⟨⟨0,hu.1 ▸ h⟩,fun _ he => absurd he (hu.2 _)⟩)
  rintro - _ rfl
  refine (beforeCdpOperations_rule 1 _).bind ?_ (fun e t hu => (h.failed hu).withheld)
  rintro _ t ⟨ht,-⟩
  replace h := h.later ht
  refine (remaining_rule t).bind ?_ (fun e t hu => (h.failed hu).withheld)
  rintro _ u ⟨hu,-⟩
  replace h := h.later hu
  refine ((drive_rule request.waitMs u h).attempt_ended).bind ?_ (by simp)
  rintro (e|⟨⟩) v hv
  · obtain ⟨n,hn⟩ := hv.1
    split_ifs
    · exact (giveUp_rule v).mono (fun _ _ hf => hf.elim) (fun e t hu => (hn.failed hu).withheld)
    · exact ensures_throw hv.withheld
  · obtain ⟨h5,hk,hw⟩ := hv
    split_ifs
    · exact (giveUp_rule v).mono (fun _ _ hf => hf.elim) (fun e t hu => (h5.failed hu).withheld)
    · refine ensures_ok_bind rfl ((deliver_rule _ v h5 hk).mono ?_ (fun _ _ hu => hu))
      rintro _ t ⟨x,hx,hr,ht,hd⟩
      exact ⟨x,h5.later hx,by rwa [hx.calls],hr,ht,hd⟩

/-- Each call starts before the deadline with its time left, and at most the last one
starts after the rendering was cancelled. -/
def InTime (control : Control) (calls : List Call) : Prop :=
  (∀ c ∈ calls, c.startedAt < control.deadline ∧ c.startedAt+c.allowance ≤ control.deadline) ∧
    ∀ c ∈ calls.dropLast, c.cancelled = false

theorem Timely.inTime (h : Timely control n s) : InTime control s.calls := ⟨h.within,h.once⟩

end Calls

/-- Whatever the clock, the caller, the page and the browser do, the calls into the browser
follow the plan in time; a rendering that ends well has made them all before the deadline,
with the waiting time of the page between navigation and export. -/
theorem rendering_stays_in_time (request : HtmlRenderRequest) (inlineUrl : Url) (late : Bool)
    (now : ℕ) :
    Ensures (render outside control host request inlineUrl late) { now := now }
      (fun _ t => t.calls.map Call.action = plan ∧ InTime control t.calls ∧
        Waited host request.waitMs t.calls ∧ t.now < control.deadline)
      (fun _ t => t.calls.map Call.action <+: plan ∧ InTime control t.calls) := by
  refine (render_rule request inlineUrl late { now := now } ⟨rfl,by simp,by simp,by simp⟩).mono
    ?_ ?_
  · rintro _ t ⟨u,h,hw,-,ht,hd⟩
    have h' := h.later ht
    exact ⟨h'.actions,h'.inTime,by rwa [ht.calls],hd⟩
  · rintro e t ⟨⟨n,h⟩,-⟩
    exact ⟨h.actions ▸ List.take_prefix n plan,h.inTime⟩

end YinShu.BrowserRender
