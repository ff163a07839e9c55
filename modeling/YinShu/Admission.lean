import YinShu.AgentSystem
import YinShu.IpAllowlist
import YinShu.LoopbackGrant

/-!
# Who may connect

A request passes two checks before its socket loop starts: the middleware looks at
the address of the client, the handler of the upgrade at the origin of the page.
Each check reads the configuration that is in force at that moment, and a saved
configuration can come into force between any two steps. A client that gets inside
was allowed by configurations of that time, the address first and the origin then.
-/

set_option autoImplicit false

namespace YinShu.Admission
open YinShu.InternetAddress YinShu.Protocol YinShu.Settings YinShu.IpAllowlist YinShu.PrintQueue
open YinShu.ClientText YinShu.LoopbackGrant YinShu.AgentSystem YinShu.LabelledRun

def isAllowedOrigin (origin : Option String) (allowedOrigins : List String) : Bool :=
  match origin with
  | none => false
  | some origin => allowedOrigins.contains origin

def isWsOriginAllowed (config : AgentConfig) (origin : Option String) : Bool :=
  isAllowedOrigin origin config.security.allowedOrigins

/-- Whether the request goes on. The listener attaches the address of the client to it. -/
def ipWhitelistMiddleware (p : Parsers) (config : AgentConfig) (addr : Option IpAddr) : Bool :=
  match addr with
  | none => true
  | some addr => isClientIpAllowed p addr config.security.allowedIps

/-- Where a request stands; `gone` is one that was answered without a socket loop. -/
inductive Visit where
  | away
  | routed (peer : IpAddr)
  | upgraded (peer : IpAddr) (origin : String)
  | inside (peer : IpAddr) (origin : String)
  | gone
  deriving DecidableEq

/-- The agent with its configuration and its requests. The former configurations,
oldest first, are history; no step reads them. -/
structure Server where
  system : System := {}
  config : AgentConfig
  past : List AgentConfig := []
  visits : ℕ → Visit := fun _ => .away

/-- `leave` is a request that ends before its upgrade is done. The frames of `agent`
are read with the limits of any configuration. -/
inductive Label where
  | request (c : ℕ) (peer : IpAddr)
  | upgrade (c : ℕ) (origin : Option String)
  | leave (c : ℕ)
  | handleSocket (c : ℕ)
  | agent (l : AgentSystem.Label)
  | save (config : AgentConfig) (written : Bool)

def Server.setVisit (s : Server) (c : ℕ) (visit : Visit) : Server :=
  { s with visits := Function.update s.visits c visit }

def Server.enter (s : Server) (config : AgentConfig) : Server :=
  { s with config := config, past := s.past++[s.config] }

def Server.inForce (s : Server) : List AgentConfig := s.past++[s.config]

def isConnect : AgentSystem.Label → Bool
  | .socket _ (.connect _) => true
  | _ => false

def wsHandler (config : AgentConfig) (peer : IpAddr) (origin : Option String) : Visit :=
  match origin with
  | none => .gone
  | some header => if isWsOriginAllowed config origin then .upgraded peer header else .gone

def step (env : ServerEnv) (s : Server) : Label → Option Server
  | .request c peer =>
    match s.visits c with
    | .away => some (s.setVisit c
        (if ipWhitelistMiddleware env.parsers s.config (some peer) then .routed peer else .gone))
    | _ => none
  | .upgrade c origin =>
    match s.visits c with
    | .routed peer => some (s.setVisit c (wsHandler s.config peer origin))
    | _ => none
  | .leave c =>
    match s.visits c with
    | .routed _ | .upgraded _ _ => some (s.setVisit c .gone)
    | _ => none
  | .handleSocket c =>
    match s.visits c with
    | .upgraded peer origin =>
      (AgentSystem.step env s.system (.socket c (.connect (some origin)))).map
        (fun system => { s with system := system }.setVisit c (.inside peer origin))
    | _ => none
  | .agent l =>
    if isConnect l then none
    else (AgentSystem.step env s.system l).map (fun system => { s with system := system })
  | .save config written =>
    match checkConfig env.parsers config with
    | .error _ => some s
    | .ok checked => some (if written then s.enter checked else s)

/-- The first check was passed under a configuration that was in force from the given
moment on. -/
def Passed (p : Parsers) (since : ℕ) (configs : List AgentConfig) (moment : ℕ) (peer : IpAddr) :
    Prop :=
  since ≤ moment ∧ ∃ config, configs[moment]? = some config ∧
    ipWhitelistMiddleware p config (some peer) = true

/-- Both checks were passed, the address first, and under configurations in force. -/
def Admitted (p : Parsers) (since : ℕ) (configs : List AgentConfig) (peer : IpAddr)
    (origin : String) : Prop :=
  ∃ i j, Passed p since configs i peer ∧ i ≤ j ∧ ∃ config, configs[j]? = some config ∧
    isWsOriginAllowed config (some origin) = true

def Vetted (p : Parsers) (since : ℕ) (configs : List AgentConfig) : Visit → Prop
  | .routed peer => ∃ i, Passed p since configs i peer
  | .upgraded peer origin | .inside peer origin => Admitted p since configs peer origin
  | .away | .gone => True

section Steps

variable {env : ServerEnv} {s t : Server}

/-- All that one step can do. -/
theorem step_cases {l : Label} (h : step env s l = some t) :
    (∃ c peer, s.visits c = .away ∧ t = s.setVisit c
      (if ipWhitelistMiddleware env.parsers s.config (some peer) then .routed peer else .gone)) ∨
    (∃ c peer origin, s.visits c = .routed peer ∧
      t = s.setVisit c (wsHandler s.config peer origin)) ∨
    (∃ c, (∀ peer origin, s.visits c ≠ .inside peer origin) ∧ t = s.setVisit c .gone) ∨
    (∃ c peer origin system, s.visits c = .upgraded peer origin ∧
      AgentSystem.step env s.system (.socket c (.connect (some origin))) = some system ∧
      t = { s with system := system }.setVisit c (.inside peer origin)) ∨
    (∃ l system, isConnect l = false ∧ AgentSystem.step env s.system l = some system ∧
      t = { s with system := system }) ∨
    (∃ checked, t = s.enter checked) ∨ t = s := by
  cases l with
  | request c peer =>
    cases hv : s.visits c <;> simp only [step,hv,reduceCtorEq,Option.some.injEq] at h
    exact .inl ⟨c,peer,hv,h.symm⟩
  | upgrade c origin =>
    cases hv : s.visits c <;> simp only [step,hv,reduceCtorEq,Option.some.injEq] at h
    exact .inr (.inl ⟨c,_,origin,hv,h.symm⟩)
  | leave c =>
    cases hv : s.visits c <;> simp only [step,hv,reduceCtorEq,Option.some.injEq] at h
    · exact .inr (.inr (.inl ⟨c,by simp [hv],h.symm⟩))
    · exact .inr (.inr (.inl ⟨c,by simp [hv],h.symm⟩))
  | handleSocket c =>
    cases hv : s.visits c <;> simp only [step,hv,reduceCtorEq,Option.map_eq_some_iff] at h
    obtain ⟨system,hs,rfl⟩ := h
    exact .inr (.inr (.inr (.inl ⟨c,_,_,system,hv,hs,rfl⟩)))
  | agent l =>
    cases hl : isConnect l <;> simp only [step,hl,if_true,if_false,reduceCtorEq,
      Bool.false_eq_true,Option.map_eq_some_iff] at h
    obtain ⟨system,hs,rfl⟩ := h
    exact .inr (.inr (.inr (.inr (.inl ⟨l,system,hl,hs,rfl⟩))))
  | save config written =>
    cases hc : checkConfig env.parsers config with
    | error error =>
      simp only [step,hc,Option.some.injEq] at h
      exact .inr (.inr (.inr (.inr (.inr (.inr h.symm)))))
    | ok checked =>
      simp only [step,hc,Option.some.injEq] at h
      cases written with
      | true => exact .inr (.inr (.inr (.inr (.inr (.inl ⟨checked,h.symm⟩)))))
      | false => exact .inr (.inr (.inr (.inr (.inr (.inr h.symm)))))

theorem inForce_current (s : Server) : s.inForce[s.past.length]? = some s.config := by
  simp [Server.inForce]

/-- A configuration that was in force stays in the history at its place. -/
theorem step_inForce {l : Label} (h : step env s l = some t) :
    s.past.length ≤ t.past.length ∧ ∃ more, t.inForce = s.inForce++more := by
  rcases step_cases h with ⟨c,peer,-,rfl⟩ | ⟨c,peer,origin,-,rfl⟩ | ⟨c,-,rfl⟩ |
    ⟨c,peer,origin,system,-,-,rfl⟩ | ⟨l,system,-,-,rfl⟩ | ⟨checked,rfl⟩ | rfl
  · exact ⟨le_refl _,[],by simp [Server.setVisit,Server.inForce]⟩
  · exact ⟨le_refl _,[],by simp [Server.setVisit,Server.inForce]⟩
  · exact ⟨le_refl _,[],by simp [Server.setVisit,Server.inForce]⟩
  · exact ⟨le_refl _,[],by simp [Server.setVisit,Server.inForce]⟩
  · exact ⟨le_refl _,[],by simp [Server.inForce]⟩
  · exact ⟨by simp [Server.enter],[checked],by simp [Server.enter,Server.inForce]⟩
  · exact ⟨le_refl _,[],by simp⟩

variable {p : Parsers} {since : ℕ} {configs : List AgentConfig}

theorem getElem?_grown {i : ℕ} {config : AgentConfig} (h : configs[i]? = some config)
    (more : List AgentConfig) : (configs++more)[i]? = some config := by
  have hi := (List.getElem?_eq_some_iff.mp h).1
  rw [List.getElem?_append_left hi]
  exact h

theorem Passed.grown {i : ℕ} {peer : IpAddr} (h : Passed p since configs i peer)
    (more : List AgentConfig) : Passed p since (configs++more) i peer := by
  obtain ⟨hsince,config,hi,hpass⟩ := h
  exact ⟨hsince,config,getElem?_grown hi more,hpass⟩

theorem Admitted.grown {peer : IpAddr} {origin : String} (h : Admitted p since configs peer origin)
    (more : List AgentConfig) : Admitted p since (configs++more) peer origin := by
  obtain ⟨i,j,hpass,hij,config,hj,horigin⟩ := h
  exact ⟨i,j,hpass.grown more,hij,config,getElem?_grown hj more,horigin⟩

theorem Vetted.grown {visit : Visit} (h : Vetted p since configs visit)
    (more : List AgentConfig) : Vetted p since (configs++more) visit := by
  cases visit with
  | routed peer =>
    obtain ⟨i,hpass⟩ := h
    exact ⟨i,hpass.grown more⟩
  | upgraded peer origin => exact Admitted.grown h more
  | inside peer origin => exact Admitted.grown h more
  | away => trivial
  | gone => trivial

/-- The checks that the request has passed were made from the given moment on. -/
def Checked (p : Parsers) (since c : ℕ) (s : Server) : Prop :=
  since ≤ s.past.length ∧ Vetted p since s.inForce (s.visits c)

theorem Checked.setVisit {c : ℕ} (h : Checked p since c s) {c' : ℕ} {visit : Visit}
    (hv : c' = c → Vetted p since s.inForce visit) : Checked p since c (s.setVisit c' visit) := by
  refine ⟨h.1,?_⟩
  change Vetted p since s.inForce (Function.update s.visits c' visit c)
  by_cases hc : c = c'
  · rw [hc,Function.update_self]
    exact hv hc.symm
  · rw [Function.update_of_ne hc]
    exact h.2

theorem Vetted.routed (hs : since ≤ s.past.length) (peer : IpAddr) :
    Vetted p since s.inForce
      (if ipWhitelistMiddleware p s.config (some peer) then .routed peer else .gone) := by
  split
  · case isTrue hpass => exact ⟨s.past.length,hs,s.config,inForce_current s,hpass⟩
  · trivial

/-- The check of the origin comes after the check of the address. -/
theorem Vetted.upgraded {peer : IpAddr} (h : Vetted p since s.inForce (.routed peer))
    (origin : Option String) : Vetted p since s.inForce (wsHandler s.config peer origin) := by
  obtain ⟨i,hpass⟩ := h
  have hi : i ≤ s.past.length := by
    obtain ⟨-,config,hi,-⟩ := hpass
    have hlt := (List.getElem?_eq_some_iff.mp hi).1
    rw [Server.inForce,List.length_append,List.length_singleton] at hlt
    omega
  cases origin with
  | none => trivial
  | some header =>
    rw [wsHandler]
    split
    · case isTrue horigin =>
      exact ⟨i,s.past.length,hpass,hi,s.config,inForce_current s,horigin⟩
    · trivial

theorem step_checked (c : ℕ) (s : Server) (l : Label) (t : Server)
    (h : Checked env.parsers since c s) (hs : step env s l = some t) :
    Checked env.parsers since c t := by
  rcases step_cases hs with ⟨c',peer,-,rfl⟩ | ⟨c',peer,origin,hv,rfl⟩ | ⟨c',-,rfl⟩ |
    ⟨c',peer,origin,system,hv,-,rfl⟩ | ⟨l,system,-,-,rfl⟩ | ⟨checked,rfl⟩ | rfl
  · exact h.setVisit (fun _ => .routed h.1 peer)
  · refine h.setVisit (fun hc => .upgraded ?_ origin)
    rw [← hv,hc]
    exact h.2
  · exact h.setVisit (fun _ => trivial)
  · refine Checked.setVisit (s := { s with system := system }) h (fun hc => ?_)
    have hup := h.2
    rw [← hc,hv] at hup
    exact hup
  · exact h
  · obtain ⟨hpast,more,hmore⟩ := step_inForce hs
    refine ⟨h.1.trans hpast,?_⟩
    rw [hmore]
    exact h.2.grown more
  · exact h

end Steps

/-- A page whose origin is withdrawn between its upgrade and its socket loop. -/
def pageConfig : AgentConfig := { AgentConfig.default with
  security := ⟨["http://127.0.0.1:6688"],[requiredLoopbackIp]⟩ }

def pageVisit : List Label := [.request 0 (.v4 0x7f000001#32),
  .upgrade 0 (some "http://127.0.0.1:6688"),.save AgentConfig.default true,.handleSocket 0,
  .agent (.socket 0 (.text AgentConfig.default localFrame))]

def pageQueued : QueuedJob := ⟨"REQ-LOCAL",none,localJob,some "http://127.0.0.1:6688"⟩

theorem pageVisit_runs : ∃ t, run (step localEnv) pageVisit { config := pageConfig } = some t ∧
    t.visits 0 = .inside (.v4 0x7f000001#32) "http://127.0.0.1:6688" ∧
    t.system.queue.pending = [pageQueued] ∧ t.inForce = [pageConfig,AgentConfig.default] := by
  have hview : (run (step localEnv) pageVisit { config := pageConfig }).map
      (fun t => (t.visits 0,t.system.queue.pending,t.inForce)) =
        some (.inside (.v4 0x7f000001#32) "http://127.0.0.1:6688",[pageQueued],
          [pageConfig,AgentConfig.default]) := by
    decide +kernel
  obtain ⟨t,ht,hview⟩ := Option.map_eq_some_iff.mp hview
  simp only [Prod.mk.injEq] at hview
  exact ⟨t,ht,hview⟩

/-- A client that gets inside during a run has passed both checks in that run: its
address under a configuration in force since the start of the run, and its origin under
the same or a later one. What was withdrawn before admits nobody any more. -/
theorem admission_current (env : ServerEnv) (ls : List Label) (s t : Server) (c : ℕ)
    (peer : IpAddr) (origin : String) (hr : run (step env) ls s = some t)
    (hout : s.visits c = .away) (hin : t.visits c = .inside peer origin) :
    Admitted env.parsers s.past.length t.inForce peer origin := by
  have hstart : Checked env.parsers s.past.length c s := by
    refine ⟨le_refl _,?_⟩
    rw [hout]
    trivial
  have hend := run_invariant (step env) _ (step_checked c) ls s t hstart hr
  have hvetted := hend.2
  rw [hin] at hvetted
  exact hvetted

theorem admission_current_page : ∃ t, run (step localEnv) pageVisit { config := pageConfig } =
    some t ∧ Admitted localEnv.parsers 0 [pageConfig,AgentConfig.default] (.v4 0x7f000001#32)
      "http://127.0.0.1:6688" := by
  obtain ⟨t,ht,hin,-,hforce⟩ := pageVisit_runs
  have hadmitted := admission_current localEnv pageVisit { config := pageConfig } t 0
    (.v4 0x7f000001#32) "http://127.0.0.1:6688" ht rfl hin
  rw [hforce] at hadmitted
  exact ⟨t,ht,hadmitted⟩

end YinShu.Admission
