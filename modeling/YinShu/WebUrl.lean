import YinShu.TextScan

/-!
# Parsed URLs and their origins

A parsed URL is known through the accessors of the URL library. The parser
itself is a parameter of everything that reads URL texts. An origin that is
not a triple is unique: the library mints a fresh one on every call, so that
it is never the same as another origin, and it serializes as `null`.
-/

set_option autoImplicit false

namespace YinShu.WebUrl

inductive Origin where
  | unique
  | tuple (scheme host : String) (port : UInt16)
  deriving DecidableEq, Repr

def defaultPort : String → Option UInt16
  | "http" => some 80
  | "ws" => some 80
  | "https" => some 443
  | "wss" => some 443
  | "ftp" => some 21
  | _ => none

/-- Comparison of the results of two separate `origin()` calls. -/
def Origin.same : Origin → Origin → Bool
  | .tuple s h p, .tuple s' h' p' => s == s' && h == h' && p == p'
  | _, _ => false

def Origin.asciiSerialization : Origin → String
  | .unique => "null"
  | .tuple scheme host port =>
    if defaultPort scheme = some port then scheme ++ "://" ++ host
    else scheme ++ "://" ++ host ++ ":" ++ toString port.toNat

def isHttp (scheme : String) : Bool := scheme == "http" || scheme == "https"

/-- The library keeps the port only when it is not the default one of the
scheme, and gives an HTTP(S) URL the triple of its own parts as origin. -/
structure Url where
  scheme : String
  hostStr : Option String
  port : Option UInt16
  path : String
  query : Option String
  asStr : String
  origin : Origin
  origin_http : isHttp scheme = true → ∀ host, hostStr = some host →
    ∃ p, port.or (defaultPort scheme) = some p ∧ origin = .tuple scheme host p

/-- A data URL has no host, so that nothing is asked of its origin. -/
theorem data_origin_http : isHttp "data" = true → ∀ host, (none : Option String) = some host →
    ∃ p, (none : Option UInt16).or (defaultPort "data") = some p ∧
      Origin.unique = .tuple "data" host p := by
  rintro - host ⟨⟩

def Url.portOrKnownDefault (url : Url) : Option UInt16 := url.port.or (defaultPort url.scheme)

theorem same_iff (a b : Origin) :
    a.same b = true ↔ ∃ s h p, a = .tuple s h p ∧ b = .tuple s h p := by
  cases a with
  | unique => simp [Origin.same]
  | tuple s h p =>
    cases b with
    | unique => simp [Origin.same]
    | tuple s' h' p' =>
      simp only [Origin.same, Bool.and_eq_true, beq_iff_eq, Origin.tuple.injEq]
      constructor
      · rintro ⟨⟨rfl,rfl⟩,rfl⟩
        exact ⟨s,h,p,⟨rfl,rfl,rfl⟩,rfl,rfl,rfl⟩
      · rintro ⟨_,_,_,⟨rfl,rfl,rfl⟩,rfl,rfl,rfl⟩
        exact ⟨⟨rfl,rfl⟩,rfl⟩

theorem same_eq (a b : Origin) (h : a.same b = true) : a = b := by
  obtain ⟨_,_,_,ha,hb⟩ := (same_iff a b).mp h
  rw [ha,hb]

end YinShu.WebUrl
