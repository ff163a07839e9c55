import YinShu.AddressText
import YinShu.ClientText
import YinShu.ResourcePolicy
import YinShu.TextPieces

/-!
# Literal hosts

The host of a URL may be an address: four octets, or an IPv6 text between
brackets. The policy decides an IPv4 host by its address and never asks the
resolver about it. The brackets stay on an IPv6 host, which is then no address
to the policy: it is looked up like a name.
-/

set_option autoImplicit false

namespace YinShu.LiteralHosts
open YinShu.TextScan YinShu.InternetAddress YinShu.AddressText YinShu.WebUrl YinShu.Protocol
open YinShu.HtmlRender YinShu.ClientText YinShu.ResourcePolicy

/-- The host text that the URL library has for an address. -/
inductive LiteralHost : String → IpAddr → Prop where
  | v4 (a : BitVec 32) : LiteralHost (dottedQuad a) (.v4 a)
  | v6 (a : BitVec 128) (text : String) (h : parseIpAddr text = some (.v6 a)) :
    LiteralHost ("[" ++ text ++ "]") (.v6 a)

/-- The host as the URL has it, with the port when the URL keeps one. -/
def ownAuthority (url : Url) (host : String) : String :=
  match url.port with
  | some port => host ++ ":" ++ toString port.toNat
  | none => host

/-- The URL is on the granted origin and its host is one of the two exact loopbacks. -/
def GrantedLoopback (url : Url) (allowed : Option Url) (address : IpAddr) : Prop :=
  ∃ origin, allowed = some origin ∧ origin.origin.same url.origin = true ∧
    (address = .v4 0x7f000001#32 ∨ address = .v6 1#128)

/-- The verdict on a URL follows from its address, whatever the resolver says, and the
server agrees with the policy on what an exact loopback is. -/
structure DecidedByAddress (p : Parsers) (url : Url) (host : String) (port : UInt16)
    (address : IpAddr) : Prop where
  silent : ∀ resolver allowed history, (resolveTarget p resolver url allowed history).2 = []
  verdict : ∀ resolver allowed history target,
    (resolveTarget p resolver url allowed history).1 = .ok target ↔
      target = ⟨ownAuthority url host,⟨address,port⟩⟩ ∧
        (isPublicIp p address = true ∨ GrantedLoopback url allowed address)
  loopback : isExactLoopbackUrl url = isExactLoopbackHost host

section Ipv4

variable (a : BitVec 32)

theorem dottedQuad_toList : (dottedQuad a).toList = dottedChars a := by simp [dottedQuad]

theorem getLast_dottedChars (h : dottedChars a ≠ []) :
    ((dottedChars a).getLast h).isDigit = true := by
  have hne := decimal_ne_nil (octet_lt a 0)
  refine mem_decimal (n := octet a 0) ?_
  have hlast : (dottedChars a).getLast h = (decimal (octet a 0)).getLast hne := by
    simp [dottedChars,hne]
  rw [hlast]
  exact List.getLast_mem hne

theorem trimEndMatches_dottedQuad : trimEndMatches '.' (dottedQuad a) = dottedQuad a := by
  unfold trimEndMatches
  rw [dottedQuad_toList,List.rdropWhile_eq_self_iff.mpr]
  · rfl
  · intro hne hdot
    have hdigit := getLast_dottedChars a hne
    rw [beq_iff_eq.mp hdot] at hdigit
    exact absurd hdigit (by decide)

theorem normalizedHost_dottedQuad : normalizedHost (dottedQuad a) = dottedQuad a := by
  unfold normalizedHost toAsciiLowercase
  rw [trimEndMatches_dottedQuad,dottedQuad_toList]
  have hmap : (dottedChars a).map Char.toLower = dottedChars a := by
    refine (List.map_congr_left (fun c hc => ?_)).trans (List.map_id _)
    rcases mem_dottedChars hc with hd | rfl
    · exact TextPieces.toLower_of_isDigit hd
    · decide
  rw [hmap]
  rfl

theorem colon_not_mem_dottedQuad : ':' ∉ (dottedQuad a).toList := by
  rw [dottedQuad_toList]
  intro hc
  rcases mem_dottedChars hc with hd | hd
  · exact absurd hd (by decide)
  · exact absurd hd (by decide)

theorem loopback_text : dottedQuad 0x7f000001#32 = "127.0.0.1" := by decide

theorem isExactLoopbackHost_dottedQuad :
    isExactLoopbackHost (dottedQuad a) = (a == 0x7f000001#32) := by
  simp [isExactLoopbackHost,parseIpAddr_dottedQuad]

theorem isExactLoopbackUrl_dottedQuad {url : Url} (h : url.hostStr = some (dottedQuad a)) :
    isExactLoopbackUrl url = (a == 0x7f000001#32) := by
  have hcolon : dottedQuad a ≠ "::1" := by
    intro he
    have hm := colon_not_mem_dottedQuad a
    rw [he] at hm
    exact hm (by decide)
  have hiff : dottedQuad a = "127.0.0.1" ↔ a = 0x7f000001#32 := by
    rw [← loopback_text]
    exact ⟨dottedQuad_injective a _,congrArg dottedQuad⟩
  rw [Bool.eq_iff_iff]
  simp [isExactLoopbackUrl,h,hcolon,hiff]

theorem authority_dottedQuad (url : Url) :
    authority url (dottedQuad a) = ownAuthority url (dottedQuad a) := by
  cases hport : url.port <;> simp [authority,ownAuthority,hport,colon_not_mem_dottedQuad]

variable {p : Parsers} {url : Url} {port : UInt16}

theorem resolveTarget_ipv4 (hs : isHttp url.scheme = true)
    (hh : url.hostStr = some (dottedQuad a)) (hport : url.portOrKnownDefault = some port)
    (resolver : HostResolver) (allowed : Option Url) (history : List Event) :
    resolveTarget p resolver url allowed history =
      (approvedTarget p url (ownAuthority url (dottedQuad a)) ⟨.v4 a,port⟩
        (isAllowedLoopback url (dottedQuad a) allowed),[]) := by
  have hparse := parseIpAddr_dottedQuad a
  have hempty : parseIpAddr "" = none := by decide
  have hlocal : parseIpAddr "localhost" = none := by decide
  have hname : ¬(dottedQuad a = "" ∨ dottedQuad a = "localhost") := by
    rintro (he | he)
    · simp [he,hempty] at hparse
    · simp [he,hlocal] at hparse
  unfold resolveTarget
  simp only [hs,hh,hport,normalizedHost_dottedQuad,hparse,Bool.not_true,Bool.false_eq_true,if_false,
    if_neg hname,authority_dottedQuad]

theorem grantedLoopback_ipv4 {allowed : Option Url} :
    (isAllowedLoopback url (dottedQuad a) allowed = true ∧ IpAddr.isLoopback (.v4 a) = true) ↔
      GrantedLoopback url allowed (.v4 a) := by
  unfold isAllowedLoopback GrantedLoopback
  cases allowed with
  | none => simp
  | some origin =>
    simp only [isExactLoopbackHost_dottedQuad,Bool.and_eq_true,beq_iff_eq,Option.some.injEq,
      IpAddr.v4.injEq,reduceCtorEq,or_false,exists_eq_left']
    constructor
    · exact fun h => h.1
    · rintro ⟨ho,rfl⟩
      exact ⟨⟨ho,rfl⟩,by decide⟩

theorem decidedByAddress_ipv4 (hs : isHttp url.scheme = true)
    (hh : url.hostStr = some (dottedQuad a)) (hport : url.portOrKnownDefault = some port) :
    DecidedByAddress p url (dottedQuad a) port (.v4 a) where
  silent resolver allowed history := by rw [resolveTarget_ipv4 a hs hh hport]
  verdict resolver allowed history target := by
    rw [resolveTarget_ipv4 a hs hh hport,← grantedLoopback_ipv4]
    unfold approvedTarget
    split
    · rename_i h
      simp only [Bool.or_eq_true,Bool.and_eq_true] at h
      constructor
      · rintro ⟨⟩
        exact ⟨rfl,h⟩
      · rintro ⟨rfl,-⟩
        rfl
    · rename_i h
      simp only [Bool.or_eq_true,Bool.and_eq_true] at h
      exact ⟨fun he => (nomatch he),fun he => absurd he.2 h⟩
  loopback := by rw [isExactLoopbackUrl_dottedQuad a hh,isExactLoopbackHost_dottedQuad]

end Ipv4

section Ipv6

variable (text : String)

theorem normalizedHost_bracket :
    (normalizedHost ("[" ++ text ++ "]")).toList.head? = some '[' := by
  have hchars : ("[" ++ text ++ "]").toList = ('['::text.toList)++[']'] := by simp
  have htrim : trimEndMatches '.' ("[" ++ text ++ "]") = "[" ++ text ++ "]" := by
    unfold trimEndMatches
    rw [hchars,List.rdropWhile_concat_neg _ _ _ (by decide),← hchars]
    simp [String.append_assoc]
  unfold normalizedHost toAsciiLowercase
  rw [htrim,hchars]
  simp

/-- A host between brackets is looked up. -/
theorem bracket_looked_up {p : Parsers} {url : Url} {port : UInt16}
    (hs : isHttp url.scheme = true) (hh : url.hostStr = some ("[" ++ text ++ "]"))
    (hport : url.portOrKnownDefault = some port) (resolver : HostResolver) (allowed : Option Url)
    (history : List Event) : (resolveTarget p resolver url allowed history).2 ≠ [] := by
  have hhead := normalizedHost_bracket text
  have hname : ¬(normalizedHost ("[" ++ text ++ "]") = "" ∨
      normalizedHost ("[" ++ text ++ "]") = "localhost") := by
    rintro (he | he) <;> rw [he] at hhead <;> exact absurd hhead (by decide)
  unfold resolveTarget
  simp only [hs,hh,hport,parseIpAddr_bracket _ hhead,Bool.not_true,Bool.false_eq_true,if_false,
    if_neg hname]
  simp

end Ipv6

/-- A URL with a literal host is decided by its address, without the resolver, exactly
when the address is an IPv4 one. -/
theorem decidedByAddress_iff (p : Parsers) (url : Url) (host : String) (address : IpAddr)
    (hs : isHttp url.scheme = true) (hh : url.hostStr = some host)
    (hl : LiteralHost host address) :
    ∃ port, url.portOrKnownDefault = some port ∧
      (DecidedByAddress p url host port address ↔ ∃ a, address = .v4 a) := by
  obtain ⟨port,hport,-⟩ := url.origin_http hs host hh
  refine ⟨port,hport,?_⟩
  cases hl with
  | v4 a => exact ⟨fun _ => ⟨a,rfl⟩,fun _ => decidedByAddress_ipv4 a hs hh hport⟩
  | v6 a text h =>
    constructor
    · intro hd
      exact absurd (hd.silent (fun _ _ _ => none) none [])
        (bracket_looked_up text hs hh hport _ _ _)
    · rintro ⟨b,hb⟩
      cases hb

/-- The network parser on the texts of the blocked networks. -/
def cidr (text : String) : Option IpNet :=
  match splitOnceChars '/' text.toList with
  | none => none
  | some (front,back) =>
    match parseIpAddr (String.ofList front),readNumber 10 3 129 false back with
    | some address,some (length,[]) => some ⟨address,length⟩
    | _,_ => none

def cidrParsers : Parsers := ⟨fun _ => none,fun _ => none,cidr⟩

def literalUrl (host : String) (port : Option UInt16) (asStr : String) : Url where
  scheme := "http"
  hostStr := some host
  port := port
  path := "/"
  query := none
  asStr := asStr
  origin := .tuple "http" host (port.getD 80)
  origin_http := by
    rintro - _ ⟨⟩
    cases port <;> exact ⟨_,rfl,rfl⟩

def publicUrl : Url := literalUrl "8.8.8.8" none "http://8.8.8.8/"

theorem decidedByAddress_public : ∃ port, publicUrl.portOrKnownDefault = some port ∧
    DecidedByAddress cidrParsers publicUrl "8.8.8.8" port (.v4 0x08080808#32) := by
  have hhost : LiteralHost "8.8.8.8" (.v4 0x08080808#32) := by
    have h := LiteralHost.v4 0x08080808#32
    rwa [show dottedQuad 0x08080808#32 = "8.8.8.8" by decide] at h
  obtain ⟨port,hport,h⟩ := decidedByAddress_iff cidrParsers publicUrl "8.8.8.8"
    (.v4 0x08080808#32) (by decide) rfl hhost
  exact ⟨port,hport,h.mpr ⟨_,rfl⟩⟩

def publicUrl6 : Url :=
  literalUrl "[2606:4700:4700::1111]" none "http://[2606:4700:4700::1111]/"

def loopbackUrl6 : Url := literalUrl "[::1]" (some 6688) "http://[::1]:6688/"

/-- A public IPv6 host is blocked when the resolver does not know its brackets, and the
resolver can send the page of the loopback host to any public address, under an
authority with two pairs of brackets. -/
theorem ipv6_host_looked_up :
    parseIpAddr "2606:4700:4700::1111" = some (.v6 0x26064700470000000000000000001111#128) ∧
      isPublicIp cidrParsers (.v6 0x26064700470000000000000000001111#128) = true ∧
      (resolveTarget cidrParsers (fun _ _ _ => none) publicUrl6 none []).1.toOption = none ∧
      (resolveTarget cidrParsers (fun _ _ _ => none) publicUrl6 none []).2.length = 1 ∧
      (resolveTarget cidrParsers (fun _ _ port => some [⟨.v4 0x08080808#32,port⟩]) loopbackUrl6
        (some loopbackUrl6) []).1.toOption =
          some ⟨"[[::1]]:6688",⟨.v4 0x08080808#32,6688⟩⟩ := by
  decide +kernel

end YinShu.LiteralHosts
