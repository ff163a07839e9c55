import Mathlib.Data.List.Basic

/-!
# Internet addresses, networks and their texts

Addresses are bit vectors. The address parser follows the standard library
reader: decimal octets without leading zeros, hexadecimal groups of at most
four digits, one `::` and an embedded IPv4 tail. A network is an address with
a prefix length and contains the addresses that agree with it on that prefix.
-/

set_option autoImplicit false

namespace YinShu.InternetAddress

inductive IpAddr where
  | v4 (address : BitVec 32)
  | v6 (address : BitVec 128)
  deriving DecidableEq, Repr

structure SocketAddr where
  ip : IpAddr
  port : UInt16
  deriving DecidableEq, Repr

def IpAddr.isLoopback : IpAddr → Bool
  | .v4 a => a.extractLsb' 24 8 == 127#8
  | .v6 a => a == 1#128

def toIpv4Mapped (a : BitVec 128) : Option (BitVec 32) :=
  if a.extractLsb' 32 96 = 0xffff#96 then some (a.extractLsb' 0 32) else none

def isUnspecified (a : BitVec 128) : Bool := a == 0#128

def isMulticast (a : BitVec 128) : Bool := a.extractLsb' 120 8 == 0xff#8

def isUnicastLinkLocal (a : BitVec 128) : Bool := a.extractLsb' 118 10 == 0x3fa#10

def digitValue (c : Char) : Option ℕ :=
  if '0' ≤ c ∧ c ≤ '9' then some (c.toNat - '0'.toNat)
  else if 'a' ≤ c ∧ c ≤ 'f' then some (c.toNat - 'a'.toNat + 10)
  else if 'A' ≤ c ∧ c ≤ 'F' then some (c.toNat - 'A'.toNat + 10)
  else none

def digit (radix : ℕ) (c : Char) : Option ℕ := (digitValue c).filter (· < radix)

/-- Value, number of digits and rest of the longest run of digits. -/
def readDigits (radix : ℕ) : List Char → ℕ → ℕ → ℕ × ℕ × List Char
  | [], value, count => (value,count,[])
  | c::cs, value, count =>
    match digit radix c with
    | some d => readDigits radix cs (value*radix+d) (count+1)
    | none => (value,count,c::cs)

def readNumber (radix maxDigits bound : ℕ) (allowZeroStart : Bool) (cs : List Char) :
    Option (ℕ × List Char) :=
  match readDigits radix cs 0 0 with
  | (value,count,rest) =>
    if count = 0 ∨ maxDigits < count then none
    else if !allowZeroStart && cs.head? == some '0' && 1 < count then none
    else if bound ≤ value then none
    else some (value,rest)

def readGivenChar (c : Char) : List Char → Option (List Char)
  | [] => none
  | d::cs => if d = c then some cs else none

/-- The separator stands before every item but the first. -/
def readSeparator (sep : Char) (index : ℕ) (cs : List Char) : Option (List Char) :=
  if index = 0 then some cs else readGivenChar sep cs

def readIpv4 (cs : List Char) : Option (BitVec 32 × List Char) := do
  let (a,cs) ← readNumber 10 3 256 false cs
  let (b,cs) ← readNumber 10 3 256 false (← readGivenChar '.' cs)
  let (c,cs) ← readNumber 10 3 256 false (← readGivenChar '.' cs)
  let (d,cs) ← readNumber 10 3 256 false (← readGivenChar '.' cs)
  return (BitVec.ofNat 32 (((a*256+b)*256+c)*256+d),cs)

/-- At most `left` further groups; an embedded IPv4 address closes the list and
takes the place of two groups. -/
def readGroups : (left index : ℕ) → List Char → List ℕ × Bool × List Char
  | 0, _, cs => ([],false,cs)
  | left+1, index, cs =>
    let ipv4 := if 0 < left then (readSeparator ':' index cs).bind readIpv4 else none
    match ipv4 with
    | some (a,rest) => ([(a.extractLsb' 16 16).toNat,(a.extractLsb' 0 16).toNat],true,rest)
    | none =>
      match (readSeparator ':' index cs).bind (readNumber 16 4 65536 true) with
      | none => ([],false,cs)
      | some (group,rest) =>
        match readGroups left (index+1) rest with
        | (groups,embedded,rest) => (group::groups,embedded,rest)

def ofGroups (groups : List ℕ) : BitVec 128 :=
  BitVec.ofNat 128 (groups.foldl (fun value group => value*65536+group) 0)

def readIpv6 (cs : List Char) : Option (BitVec 128 × List Char) :=
  match readGroups 8 0 cs with
  | (front,embedded,cs) =>
    if front.length = 8 then some (ofGroups front,cs)
    else if embedded then none
    else do
      let cs ← readGivenChar ':' cs
      let cs ← readGivenChar ':' cs
      match readGroups (7-front.length) 0 cs with
      | (back,_,cs) =>
        return (ofGroups (front ++ List.replicate (8-front.length-back.length) 0 ++ back),cs)

def readIpAddr (cs : List Char) : Option (IpAddr × List Char) :=
  match readIpv4 cs with
  | some (a,rest) => some (.v4 a,rest)
  | none => (readIpv6 cs).map (fun r => (.v6 r.1,r.2))

/-- A text is an address only when the reader consumes all of it. -/
def parseIpAddr (s : String) : Option IpAddr :=
  match readIpAddr s.toList with
  | some (a,[]) => some a
  | _ => none

structure IpNet where
  addr : IpAddr
  prefixLen : ℕ
  deriving DecidableEq, Repr

def IpNet.contains (net : IpNet) : IpAddr → Bool
  | .v4 a => match net.addr with
    | .v4 n => a >>> (32-net.prefixLen) == n >>> (32-net.prefixLen)
    | .v6 _ => false
  | .v6 a => match net.addr with
    | .v6 n => a >>> (128-net.prefixLen) == n >>> (128-net.prefixLen)
    | .v4 _ => false

end YinShu.InternetAddress
