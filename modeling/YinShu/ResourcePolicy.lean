import YinShu.HtmlRender

/-!
# Which resources a rendered page may fetch

The policy approves one socket address per URL. A literal address is decided
by itself; a name is resolved once and every candidate must be public. The
single exception is a page served from an exact loopback host whose origin
was granted. The resolver may answer differently at every call: it sees the
history of all lookups and connections.
-/

set_option autoImplicit false

namespace YinShu.ResourcePolicy
open YinShu.TextScan YinShu.InternetAddress YinShu.WebUrl YinShu.Protocol YinShu.HtmlRender

structure ResolvedTarget where
  authority : String
  address : SocketAddr
  deriving DecidableEq, Repr

/-- What the proxy does to the outside world, and the verdicts of the policy. -/
inductive Event where
  | lookup (host : String) (port : UInt16) (answer : Option (List SocketAddr))
  | resolved (url : Url) (result : Except HtmlRenderError ResolvedTarget)
  | connect (address : SocketAddr)

abbrev HostResolver := List Event → String → UInt16 → Option (List SocketAddr)

def blockedIpv4Nets : List String :=
  ["0.0.0.0/8","10.0.0.0/8","100.64.0.0/10","127.0.0.0/8","169.254.0.0/16","172.16.0.0/12",
    "192.0.0.0/24","192.0.2.0/24","192.88.99.0/24","192.168.0.0/16","198.18.0.0/15",
    "198.51.100.0/24","203.0.113.0/24","224.0.0.0/4","240.0.0.0/4"]

def blockedIpv6Nets : List String := ["100::/64","2001:db8::/32","fc00::/7","fec0::/10"]

def matchesIpNet (p : Parsers) (address : IpAddr) (networks : List String) : Bool :=
  networks.any (fun network =>
    match p.ipNet network with
    | some net => net.contains address
    | none => false)

def isPublicIp (p : Parsers) : IpAddr → Bool
  | .v4 address => !matchesIpNet p (.v4 address) blockedIpv4Nets
  | .v6 address =>
    (toIpv4Mapped address).isNone && !IpAddr.isLoopback (.v6 address) &&
      !isUnspecified address && !isMulticast address && !isUnicastLinkLocal address &&
      !matchesIpNet p (.v6 address) blockedIpv6Nets

/-- The host text as the URL has it, without brackets taken off. -/
def isExactLoopbackHost (host : String) : Bool :=
  match parseIpAddr host with
  | some (.v4 address) => address == 0x7f000001#32
  | some (.v6 address) => IpAddr.isLoopback (.v6 address)
  | none => false

def blocked (url : Url) : HtmlRenderError := .blockedResource url.asStr

def normalizedHost (host : String) : String := toAsciiLowercase (trimEndMatches '.' host)

def authority (url : Url) (host : String) : String :=
  let host := if ':' ∈ host.toList then "[" ++ host ++ "]" else host
  match url.port with
  | some port => host ++ ":" ++ toString port.toNat
  | none => host

variable (p : Parsers)

def approvedTarget (url : Url) (authority : String) (address : SocketAddr)
    (isAllowedLoopback : Bool) : Except HtmlRenderError ResolvedTarget :=
  if isPublicIp p address.ip || (isAllowedLoopback && address.ip.isLoopback) then
    .ok ⟨authority,address⟩
  else .error (blocked url)

def isAllowedLoopback (url : Url) (host : String) (allowedLoopbackOrigin : Option Url) : Bool :=
  match allowedLoopbackOrigin with
  | some origin => origin.origin.same url.origin && isExactLoopbackHost host
  | none => false

/-- The verdict on the answer of the resolver. -/
def approveAnswer (url : Url) (authority : String) (answer : Option (List SocketAddr)) :
    Except HtmlRenderError ResolvedTarget :=
  match answer with
  | none => .error (blocked url)
  | some [] => .error (blocked url)
  | some (address::addresses) =>
    if (address::addresses).any (fun candidate => !isPublicIp p candidate.ip) then
      .error (blocked url)
    else approvedTarget p url authority address false

/-- The verdict on a URL and the lookups made for it. -/
def resolveTarget (resolver : HostResolver) (url : Url) (allowedLoopbackOrigin : Option Url)
    (history : List Event) : Except HtmlRenderError ResolvedTarget × List Event :=
  if !isHttp url.scheme then (.error (blocked url),[])
  else match url.hostStr with
    | none => (.error (blocked url),[])
    | some host =>
      if normalizedHost host = "" ∨ normalizedHost host = "localhost" then
        (.error (blocked url),[])
      else match url.portOrKnownDefault with
        | none => (.error (blocked url),[])
        | some port =>
          match parseIpAddr (normalizedHost host) with
          | some address =>
            (approvedTarget p url (authority url host) ⟨address,port⟩
              (isAllowedLoopback url host allowedLoopbackOrigin),[])
          | none =>
            let answer := resolver history (normalizedHost host) port
            (approveAnswer p url (authority url host) answer,
              [.lookup (normalizedHost host) port answer])

/-- An address a page may be fetched from. -/
def Approved (url : Url) (allowedLoopbackOrigin : Option Url) (address : SocketAddr) : Prop :=
  isPublicIp p address.ip = true ∨
    (address.ip.isLoopback = true ∧ ∃ host origin, url.hostStr = some host ∧
      isExactLoopbackHost host = true ∧ allowedLoopbackOrigin = some origin ∧
      origin.origin.same url.origin = true)

/-- Answers after which nothing may be fetched. -/
def Unusable : Option (List SocketAddr) → Prop
  | none => True
  | some addresses => addresses = [] ∨ ∃ candidate ∈ addresses, isPublicIp p candidate.ip = false

variable {p} {resolver : HostResolver} {url : Url} {allowed : Option Url}
  {history lookups : List Event} {result : Except HtmlRenderError ResolvedTarget}
  {target : ResolvedTarget}

theorem approvedTarget_ok {text : String} {address : SocketAddr} {loopback : Bool}
    (h : approvedTarget p url text address loopback = .ok target) :
    target.address = address ∧
      (isPublicIp p address.ip = true ∨ (loopback = true ∧ address.ip.isLoopback = true)) := by
  unfold approvedTarget at h
  split at h
  · rename_i hc
    cases h
    exact ⟨rfl,by simpa using hc⟩
  · cases h

theorem approveAnswer_ok {text : String} {answer : Option (List SocketAddr)}
    (h : approveAnswer p url text answer = .ok target) :
    isPublicIp p target.address.ip = true ∧ ¬Unusable p answer := by
  unfold approveAnswer at h
  split at h
  · cases h
  · cases h
  · rename_i address addresses
    split at h
    · cases h
    · rename_i hall
      obtain ⟨ha,hp⟩ := approvedTarget_ok h
      refine ⟨by simpa [ha] using hp,?_⟩
      rintro (hn | ⟨candidate,hc,hpub⟩)
      · cases hn
      · exact hall (List.any_eq_true.mpr ⟨candidate,hc,by simp [hpub]⟩)

theorem isAllowedLoopback_true {host : String} (h : isAllowedLoopback url host allowed = true) :
    ∃ origin, allowed = some origin ∧ origin.origin.same url.origin = true ∧
      isExactLoopbackHost host = true := by
  unfold isAllowedLoopback at h
  split at h
  · rename_i origin
    rw [Bool.and_eq_true] at h
    exact ⟨origin,rfl,h.1,h.2⟩
  · cases h

/-- All the policy can do with a URL: block it without a lookup, decide a literal
address, or decide the answer of one lookup. -/
theorem resolveTarget_cases (p : Parsers) (resolver : HostResolver) (url : Url)
    (allowed : Option Url) (history : List Event) :
    resolveTarget p resolver url allowed history = (.error (blocked url),[]) ∨
    (∃ host port address, url.hostStr = some host ∧ url.portOrKnownDefault = some port ∧
      parseIpAddr (normalizedHost host) = some address ∧
      resolveTarget p resolver url allowed history =
        (approvedTarget p url (authority url host) ⟨address,port⟩
          (isAllowedLoopback url host allowed),[])) ∨
    (∃ host port, url.hostStr = some host ∧ url.portOrKnownDefault = some port ∧
      parseIpAddr (normalizedHost host) = none ∧
      resolveTarget p resolver url allowed history =
        (approveAnswer p url (authority url host) (resolver history (normalizedHost host) port),
          [.lookup (normalizedHost host) port (resolver history (normalizedHost host) port)])) := by
  unfold resolveTarget
  by_cases hs : isHttp url.scheme = true
  · cases hh : url.hostStr with
    | none => simp
    | some host =>
      by_cases hb : normalizedHost host = "" ∨ normalizedHost host = "localhost"
      · left
        simp only [hs, Bool.not_true, Bool.false_eq_true, if_false]
        exact if_pos hb
      · simp only [hs, Bool.not_true, Bool.false_eq_true, if_false]
        rw [if_neg hb]
        cases hport : url.portOrKnownDefault with
        | none => simp
        | some port =>
          right
          cases ha : parseIpAddr (normalizedHost host) with
          | some address =>
            left
            exact ⟨host,port,address,rfl,rfl,ha,by simp⟩
          | none =>
            right
            exact ⟨host,port,rfl,rfl,ha,by simp⟩
  · simp [hs]

/-- At most one lookup is made, and a verdict that follows an answer respects it. -/
theorem resolveTarget_lookups
    (h : resolveTarget p resolver url allowed history = (result,lookups)) :
    lookups = [] ∨ ∃ host port answer, lookups = [.lookup host port answer] ∧
      ∀ target, result = .ok target → ¬Unusable p answer := by
  rcases resolveTarget_cases p resolver url allowed history with
    he | ⟨host,port,address,-,-,-,he⟩ | ⟨host,port,-,-,-,he⟩
  · rw [he] at h
    exact Or.inl (Prod.mk.inj h).2.symm
  · rw [he] at h
    exact Or.inl (Prod.mk.inj h).2.symm
  · rw [he] at h
    obtain ⟨hr,hl⟩ := Prod.mk.inj h
    exact Or.inr ⟨_,_,_,hl.symm,fun target ht => (approveAnswer_ok (hr.trans ht)).2⟩

theorem resolveTarget_ok
    (h : resolveTarget p resolver url allowed history = (.ok target,lookups)) :
    Approved p url allowed target.address := by
  rcases resolveTarget_cases p resolver url allowed history with
    he | ⟨host,port,address,hh,-,-,he⟩ | ⟨host,port,-,-,-,he⟩
  · rw [he] at h
    cases h
  · rw [he] at h
    obtain ⟨ha,hp | ⟨hl,hip⟩⟩ := approvedTarget_ok (Prod.mk.inj h).1
    · exact Or.inl (ha ▸ hp)
    · obtain ⟨origin,ho,hs,hx⟩ := isAllowedLoopback_true hl
      exact Or.inr ⟨ha ▸ hip,host,origin,hh,hx,ho,hs⟩
  · rw [he] at h
    exact Or.inl (approveAnswer_ok (Prod.mk.inj h).1).1

end YinShu.ResourcePolicy
