import YinShu.ResourcePolicy

/-!
# The filtering proxy of the renderer

Every request of the rendered page goes through this proxy: tunnels, requests
in absolute form and requests in origin form. The inline page of a rendering
is answered by the proxy itself. All other requests are resolved once by the
policy, and the one connection that may follow goes to the approved address.
-/

set_option autoImplicit false

namespace YinShu.FilteringProxy
open YinShu.InternetAddress YinShu.WebUrl YinShu.Protocol YinShu.HtmlRender YinShu.ResourcePolicy

/-- A request target as the HTTP library splits it. -/
structure Uri where
  scheme : Option String
  authority : Option String
  path : String
  query : Option String
  pathAndQuery : Option String
  text : String
  deriving DecidableEq, Repr

/-- A header is absent, or present with a value that may not be readable as text. -/
abbrev Header := Option (Option String)

structure Request where
  isConnect : Bool
  uri : Uri
  host : Header := none
  referer : Header := none
  origin : Header := none
  deriving DecidableEq, Repr

structure Response where
  status : ℕ
  contentType : Option String := none
  body : String := ""
  deriving DecidableEq, Repr

structure InlineRoute where
  authority : String
  body : String
  deriving DecidableEq, Repr

structure RejectedResourceTracker where
  rejectedResource : Option String := none
  pageUrl : Option Url := none

structure ProxyState where
  allowedLoopbackOrigin : Option Url
  inline : Option InlineRoute

/-- The libraries and the network. A connection attempt yields an error text or
succeeds; the exchange is what the upstream server answers to a forwarded request. -/
structure ProxyEnv where
  parsers : Parsers
  urlError : String → String
  resolver : HostResolver
  connectError : List Event → SocketAddr → Option String
  uriError : String → Option String
  headerError : String → Option String
  exchange : List Event → SocketAddr → Request → Except HtmlRenderError Response

def Header.text (header : Header) : Option String := header.bind id

def invalidRequest (reason : String) : HtmlRenderError := .invalidProxyRequest reason

def inlineResponse (route : InlineRoute) : Response :=
  { status := 200, contentType := some "text/html; charset=utf-8", body := route.body }

def noContentResponse : Response := { status := 204 }

def errorResponse (error : HtmlRenderError) : Response :=
  { status := match error with
      | .blockedResource _ => 403
      | _ => 502 }

def requestAuthority (request : Request) : Option String :=
  request.uri.authority.or request.host.text

variable (env : ProxyEnv) (state : ProxyState)

def proxyRequestUrl (request : Request) : Except HtmlRenderError Url :=
  if request.uri.scheme.isSome then
    match env.parsers.url request.uri.text with
    | some url => .ok url
    | none => .error (invalidRequest "proxy request URL is invalid")
  else match requestAuthority request with
    | none => .error (invalidRequest "origin-form proxy request is missing Host")
    | some authority =>
      match env.parsers.url
          ("http://" ++ authority ++ request.uri.pathAndQuery.getD "/") with
      | some url => .ok url
      | none => .error (invalidRequest "origin-form proxy request URL is invalid")

/-- The inline route, for a request without query for the given path of it. -/
def inlineRouteAt (path : String) (request : Request) : Option InlineRoute :=
  state.inline.filter (fun route =>
    requestAuthority request == some route.authority && request.uri.path == path &&
      request.uri.query.isNone)

def isInlineRequest (request : Request) : Bool := (inlineRouteAt state "/" request).isSome

def isInlineFaviconRequest (request : Request) : Bool :=
  (inlineRouteAt state "/favicon.ico" request).isSome

def isInlineConnectAuthority (authority : String) : Bool :=
  match state.inline with
  | none => false
  | some route => authority == route.authority || authority == route.authority ++ ":80"

/-- The service inside the tunnel to the inline page. It has no connector. -/
def inlineTunnelService (route : InlineRoute) (request : Request) : Response :=
  if request.host.text = some route.authority ∧ request.uri.path = "/" ∧
      request.uri.query.isNone then
    inlineResponse route
  else errorResponse (invalidRequest "inline CONNECT tunnel only serves its synthetic page")

/-- `resolve_target` and, on approval, `connector.connect`, with all they do. -/
def connectApproved (url : Url) (history : List Event) :
    Except HtmlRenderError ResolvedTarget × List Event :=
  match resolveTarget env.parsers env.resolver url state.allowedLoopbackOrigin history with
  | (.error error,lookups) => (.error error,lookups++[.resolved url (.error error)])
  | (.ok target,lookups) =>
    let events := lookups++[.resolved url (.ok target),.connect target.address]
    match env.connectError (history++lookups++[.resolved url (.ok target)]) target.address with
    | some error => (.error (.io error),events)
    | none => (.ok target,events)

def handleConnect (request : Request) (history : List Event) :
    Except HtmlRenderError Response × List Event :=
  match request.uri.authority with
  | none => (.error (invalidRequest "CONNECT target must be an authority"),[])
  | some authority =>
    if isInlineConnectAuthority state authority then (.ok { status := 200 },[])
    else
      let text := "https://" ++ authority ++ "/"
      match env.parsers.url text with
      | none => (.error (.invalidProxyRequest (env.urlError text)),[])
      | some url =>
        match connectApproved env state url history with
        | (.error error,events) => (.error error,events)
        | (.ok _,events) => (.ok { status := 200 },events)

/-- The request as it is sent on, and its exchange with the upstream server. -/
def forward (url : Url) (target : ResolvedTarget) (request : Request) (history : List Event) :
    Except HtmlRenderError Response :=
  let originForm := match url.query with
    | some query => url.path ++ "?" ++ query
    | none => url.path
  match env.uriError originForm with
  | some error => .error (.invalidProxyRequest error)
  | none =>
    let uri : Uri := ⟨none,none,url.path,url.query,some originForm,originForm⟩
    if request.host.isSome then
      env.exchange history target.address { request with uri := uri }
    else match env.headerError target.authority with
      | some error => .error (.invalidProxyRequest error)
      | none => env.exchange history target.address
          { request with uri := uri, host := some (some target.authority) }

def handleHttp (request : Request) (history : List Event) :
    Except HtmlRenderError Response × List Event :=
  match proxyRequestUrl env request with
  | .error error => (.error error,[])
  | .ok url =>
    if url.scheme ≠ "http" then
      (.error (invalidRequest "HTTPS resources must use CONNECT"),[])
    else match connectApproved env state url history with
      | (.error error,events) => (.error error,events)
      | (.ok target,events) => (forward env url target request (history++events),events)

def route (request : Request) (history : List Event) :
    Except HtmlRenderError Response × List Event :=
  if request.isConnect then handleConnect env state request history
  else match inlineRouteAt state "/" request with
    | some route => (.ok (inlineResponse route),[])
    | none =>
      if isInlineFaviconRequest state request then (.ok noContentResponse,[])
      else handleHttp env state request history

def RejectedResourceTracker.belongsToPage (tracker : RejectedResourceTracker) (p : Parsers)
    (request : Request) : Bool :=
  match tracker.pageUrl with
  | none => false
  | some pageUrl => [request.referer,request.origin].any (fun header =>
      match header.text.bind p.url with
      | some value => value.origin.same pageUrl.origin
      | none => false)

def RejectedResourceTracker.record (tracker : RejectedResourceTracker) (resource : String)
    (belongsToPage : Bool) : RejectedResourceTracker :=
  if belongsToPage then
    { tracker with rejectedResource := some (tracker.rejectedResource.getD resource) }
  else tracker

/-- One request of the page: the answer, the tracker after it and what was done. -/
def handle (tracker : RejectedResourceTracker) (request : Request) (history : List Event) :
    Response × RejectedResourceTracker × List Event :=
  match route env state request history with
  | (.ok response,events) => (response,tracker,events)
  | (.error error,events) =>
    (errorResponse error,
      match error with
      | .blockedResource resource =>
        tracker.record resource (tracker.belongsToPage env.parsers request)
      | _ => tracker,
      events)

/-- Where a request arrives: at the proxy, or inside a tunnel to the inline page. -/
inductive Channel where
  | proxied
  | inlineTunnel (route : InlineRoute)
  deriving DecidableEq, Repr

def serve (tracker : RejectedResourceTracker) (channel : Channel) (request : Request)
    (history : List Event) : Response × RejectedResourceTracker × List Event :=
  match channel with
  | .proxied => handle env state tracker request history
  | .inlineTunnel route => (inlineTunnelService route request,tracker,[])

/-- The URL that a request asks for, where it has one. -/
def requestUrl (request : Request) : Option Url :=
  if request.isConnect then
    request.uri.authority.bind (fun authority => env.parsers.url ("https://" ++ authority ++ "/"))
  else (proxyRequestUrl env request).toOption

/-- Requests that the proxy answers itself. -/
def InlineRouted (channel : Channel) (request : Request) : Prop :=
  channel ≠ .proxied ∨
    (request.isConnect = true ∧
      ∃ authority ∈ request.uri.authority, isInlineConnectAuthority state authority = true) ∨
    (request.isConnect = false ∧
      (isInlineRequest state request = true ∨ isInlineFaviconRequest state request = true))

def connects (events : List Event) : List SocketAddr :=
  events.filterMap (fun event => match event with
    | .connect address => some address
    | _ => none)

def resolutions (events : List Event) : List (Url × Except HtmlRenderError ResolvedTarget) :=
  events.filterMap (fun event => match event with
    | .resolved url result => some (url,result)
    | _ => none)

def lookups (events : List Event) : List (Option (List SocketAddr)) :=
  events.filterMap (fun event => match event with
    | .lookup _ _ answer => some answer
    | _ => none)

/-- One resolution at most, by one lookup at most, and one connection at most, to the
address that was approved. -/
structure Disciplined (p : Parsers) (allowed : Option Url) (url : Option Url)
    (events : List Event) : Prop where
  resolved_once : (resolutions events).length ≤ 1
  lookup_once : (lookups events).length ≤ 1
  connect_once : (connects events).length ≤ 1
  approved : ∀ address ∈ connects events, ∃ u target,
    url = some u ∧ resolutions events = [(u,.ok target)] ∧ target.address = address ∧
      Approved p u allowed address
  usable : ∀ answer ∈ lookups events, Unusable p answer → connects events = []

variable {env state}

theorem nil_disciplined (p : Parsers) (allowed url : Option Url) :
    Disciplined p allowed url [] := by
  constructor <;> simp [resolutions,lookups,connects]

variable (env state) in
theorem connectApproved_events (url : Url) (history : List Event) :
    (∃ found error, resolveTarget env.parsers env.resolver url state.allowedLoopbackOrigin history =
        (.error error,found) ∧ (connectApproved env state url history).2 =
          found++[.resolved url (.error error)]) ∨
      ∃ found target, resolveTarget env.parsers env.resolver url state.allowedLoopbackOrigin
        history = (.ok target,found) ∧ (connectApproved env state url history).2 =
          found++[.resolved url (.ok target),.connect target.address] := by
  unfold connectApproved
  cases h : resolveTarget env.parsers env.resolver url state.allowedLoopbackOrigin history with
  | mk result found =>
    cases result with
    | error error => exact Or.inl ⟨found,error,rfl,rfl⟩
    | ok target =>
      refine Or.inr ⟨found,target,rfl,?_⟩
      dsimp only
      split <;> rfl

variable (env state) in
theorem connectApproved_disciplined (url : Url) (history : List Event) :
    Disciplined env.parsers state.allowedLoopbackOrigin (some url)
      (connectApproved env state url history).2 := by
  rcases connectApproved_events env state url history with
    ⟨found,error,hr,he⟩ | ⟨found,target,hr,he⟩
  · rw [he]
    rcases resolveTarget_lookups hr with rfl | ⟨host,port,answer,rfl,-⟩ <;>
      constructor <;> simp [resolutions,lookups,connects]
  · rw [he]
    have hok := resolveTarget_ok hr
    rcases resolveTarget_lookups hr with rfl | ⟨host,port,answer,rfl,hu⟩
    · constructor <;> simp [resolutions,lookups,connects,hok]
    · constructor <;> simp [resolutions,lookups,connects,hok,hu]

theorem handleConnect_disciplined (request : Request) (history : List Event)
    (hm : request.isConnect = true) :
    Disciplined env.parsers state.allowedLoopbackOrigin (requestUrl env request)
      (handleConnect env state request history).2 := by
  unfold handleConnect
  cases ha : request.uri.authority with
  | none => exact nil_disciplined _ _ _
  | some authority =>
    by_cases hi : isInlineConnectAuthority state authority = true
    · simp only [hi, if_true]
      exact nil_disciplined _ _ _
    · simp only [hi, Bool.false_eq_true, if_false]
      cases hu : env.parsers.url ("https://" ++ authority ++ "/") with
      | none => exact nil_disciplined _ _ _
      | some url =>
        have hurl : requestUrl env request = some url := by simp [requestUrl,hm,ha,hu]
        have hd := connectApproved_disciplined env state url history
        rw [hurl]
        cases hc : connectApproved env state url history with
        | mk result events =>
          rw [hc] at hd
          cases result <;> simpa only [hc] using hd

theorem handleHttp_disciplined (request : Request) (history : List Event)
    (hm : request.isConnect = false) :
    Disciplined env.parsers state.allowedLoopbackOrigin (requestUrl env request)
      (handleHttp env state request history).2 := by
  unfold handleHttp
  cases hp : proxyRequestUrl env request with
  | error error => exact nil_disciplined _ _ _
  | ok url =>
    have hurl : requestUrl env request = some url := by simp [requestUrl,hm,hp,Except.toOption]
    have hd := connectApproved_disciplined env state url history
    by_cases hs : url.scheme = "http"
    · rw [hurl]
      simp only [hs, ne_eq, not_true_eq_false, if_false]
      cases hc : connectApproved env state url history with
      | mk result events =>
        rw [hc] at hd
        cases result <;> exact hd
    · simp only [hs, ne_eq, not_false_eq_true, if_true]
      exact nil_disciplined _ _ _

theorem route_disciplined (request : Request) (history : List Event) :
    Disciplined env.parsers state.allowedLoopbackOrigin (requestUrl env request)
      (route env state request history).2 := by
  unfold route
  cases hm : request.isConnect with
  | true => exact handleConnect_disciplined request history hm
  | false =>
    cases hi : inlineRouteAt state "/" request with
    | some r => exact nil_disciplined _ _ _
    | none =>
      by_cases hf : isInlineFaviconRequest state request = true
      · simp only [hf, if_true, Bool.false_eq_true, if_false]
        exact nil_disciplined _ _ _
      · simp only [hf, Bool.false_eq_true, if_false]
        exact handleHttp_disciplined request history hm

theorem handle_events (tracker : RejectedResourceTracker) (request : Request)
    (history : List Event) :
    (handle env state tracker request history).2.2 = (route env state request history).2 := by
  unfold handle
  split <;> rename_i h <;> rw [h]

theorem inline_silent (tracker : RejectedResourceTracker) (channel : Channel) (request : Request)
    (history : List Event) (h : InlineRouted state channel request) :
    (serve env state tracker channel request history).2.2 = [] := by
  cases channel with
  | inlineTunnel r => rfl
  | proxied =>
    rw [serve,handle_events]
    rcases h with h | ⟨hm,authority,ha,hi⟩ | ⟨hm,hi | hf⟩
    · exact absurd rfl h
    · simp [route,hm,handleConnect,Option.mem_def.mp ha,hi]
    · obtain ⟨r,hr⟩ := Option.isSome_iff_exists.mp hi
      simp [route,hm,hr]
    · cases hr : inlineRouteAt state "/" request <;> simp [route,hm,hr,hf]

/-- Whatever the page requests and the resolver answers, the proxy connects at most
once, to the address the policy approved in its only resolution of the request. -/
theorem proxy_connects_only_approved (env : ProxyEnv) (state : ProxyState)
    (tracker : RejectedResourceTracker) (channel : Channel) (request : Request)
    (history : List Event) :
    Disciplined env.parsers state.allowedLoopbackOrigin (requestUrl env request)
      (serve env state tracker channel request history).2.2 ∧
    (InlineRouted state channel request →
      connects (serve env state tracker channel request history).2.2 = []) := by
  constructor
  · cases channel with
    | inlineTunnel r => exact nil_disciplined _ _ _
    | proxied =>
      rw [serve,handle_events]
      exact route_disciplined request history
  · intro h
    rw [inline_silent tracker channel request history h]
    rfl

end YinShu.FilteringProxy
