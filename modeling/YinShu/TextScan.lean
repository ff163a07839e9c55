import Mathlib.Data.List.DropRight

/-!
# Text scanning

The string operations of the source language that the agent calls, over lists
of characters. White space is the Unicode property `White_Space`; case is
folded on ASCII letters only.
-/

set_option autoImplicit false

namespace YinShu.TextScan

def isWhitespace (c : Char) : Bool :=
  let n := c.toNat
  (9 ≤ n && n ≤ 13) || n == 0x20 || n == 0x85 || n == 0xA0 || n == 0x1680 ||
    (0x2000 ≤ n && n ≤ 0x200A) || n == 0x2028 || n == 0x2029 || n == 0x202F ||
    n == 0x205F || n == 0x3000

def trimChars (cs : List Char) : List Char :=
  (cs.dropWhile isWhitespace).rdropWhile isWhitespace

def trim (s : String) : String := String.ofList (trimChars s.toList)

def trimEndMatches (c : Char) (s : String) : String :=
  String.ofList (s.toList.rdropWhile (· == c))

def toAsciiLowercase (s : String) : String := String.ofList (s.toList.map Char.toLower)

def eqIgnoreAsciiCase (s t : String) : Bool := toAsciiLowercase s == toAsciiLowercase t

def stripStart : List Char → List Char → Option (List Char)
  | [], cs => some cs
  | _::_, [] => none
  | p::ps, c::cs => if p = c then stripStart ps cs else none

/-- The text after the first occurrence of a separator. -/
def afterFirst (sep : List Char) : List Char → Option (List Char)
  | [] => stripStart sep []
  | c::cs =>
    match stripStart sep (c::cs) with
    | some rest => some rest
    | none => afterFirst sep cs

def firstWord (cs : List Char) : Option (List Char) :=
  match (cs.dropWhile isWhitespace).takeWhile (fun c => !isWhitespace c) with
  | [] => none
  | word => some word

def splitOnceChars (sep : Char) : List Char → Option (List Char × List Char)
  | [] => none
  | c::cs => if c = sep then some ([],cs)
      else (splitOnceChars sep cs).map (fun r => (c::r.1,r.2))

def splitChars (sep : Char) : List Char → List (List Char)
  | [] => [[]]
  | c::cs =>
    if c = sep then []::splitChars sep cs
    else match splitChars sep cs with
      | [] => [[c]]
      | part::parts => (c::part)::parts

theorem dropWhile_rdropWhile (p : Char → Bool) (cs : List Char)
    (h : cs.dropWhile p = cs) : (cs.rdropWhile p).dropWhile p = cs.rdropWhile p := by
  cases hr : cs.rdropWhile p with
  | nil => rfl
  | cons d ds =>
    obtain ⟨rest,hrest⟩ : cs.rdropWhile p <+: cs := List.rdropWhile_prefix p cs
    rw [hr] at hrest
    have hd : p d = false := by
      subst hrest
      by_contra hd
      rw [List.cons_append, List.dropWhile_cons_of_pos (by simpa using hd)] at h
      have := congrArg List.length h
      have := (List.dropWhile_suffix p (l := ds++rest)).length_le
      simp at *
      omega
    simp [hd]

theorem trimChars_idempotent (cs : List Char) : trimChars (trimChars cs) = trimChars cs := by
  unfold trimChars
  rw [dropWhile_rdropWhile isWhitespace _ (List.dropWhile_idempotent _ _),
    List.rdropWhile_idempotent]

theorem trim_idempotent (s : String) : trim (trim s) = trim s := by
  simp [trim, trimChars_idempotent]

end YinShu.TextScan
