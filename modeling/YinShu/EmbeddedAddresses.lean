import YinShu.LiteralHosts

/-!
# IPv4 addresses inside IPv6 addresses

Four standard forms carry an IPv4 address in an IPv6 one: the mapped and the
compatible form, the well-known NAT64 network and the 6to4 networks. The policy
has a check of its own for the first form only. The others meet the list of
blocked IPv6 networks, and none of these networks holds an address of theirs.
-/

set_option autoImplicit false

namespace YinShu.EmbeddedAddresses
open YinShu.InternetAddress YinShu.Protocol YinShu.ResourcePolicy YinShu.LiteralHosts

inductive Embedding where
  | mapped
  | compatible
  | nat64
  | sixToFour (rest : BitVec 80)
  deriving DecidableEq, Repr

def Embedding.carry (a : BitVec 32) : Embedding → BitVec 128
  | .mapped => 0xffff#96++a
  | .compatible => 0#96++a
  | .nat64 => 0x0064ff9b0000000000000000#96++a
  | .sixToFour rest => 0x2002#16++a++rest

/-- The network parser reads the blocked IPv6 networks as what they say. -/
def ReadsIpv6Nets (p : Parsers) : Prop := ∀ text ∈ blockedIpv6Nets, p.ipNet text = cidr text

/-- The three bits by which every blocked IPv6 network differs from the four forms. -/
def LowTop (x : BitVec 128) : Prop :=
  x.getLsbD 127 = false ∧ x.getLsbD 120 = false ∧ x.getLsbD 112 = false

section Networks

variable {x n : BitVec 128} {k i : ℕ}

theorem shiftRight_ne (hk : k ≤ i) (hx : x.getLsbD i = false) (hn : n.getLsbD i = true) :
    x >>> k ≠ n >>> k := by
  intro h
  have hb := congrArg (fun v => v.getLsbD (i-k)) h
  simp only [BitVec.getLsbD_ushiftRight,Nat.add_sub_cancel' hk,hx,hn] at hb
  cases hb

theorem extract_ne {start len : ℕ} {v : BitVec len} (hs : start ≤ i) (hl : i-start < len)
    (hx : x.getLsbD i = false) (hv : v.getLsbD (i-start) = true) :
    x.extractLsb' start len ≠ v := by
  intro h
  have hb := congrArg (fun v => v.getLsbD (i-start)) h
  simp only [BitVec.getLsbD_extractLsb',Nat.add_sub_cancel' hs,hl,decide_true,Bool.true_and,
    hx,hv] at hb
  cases hb

/-- No blocked IPv6 network holds an address without those bits. -/
theorem cidr_contains_lowTop (h : LowTop x) {text : String} (ht : text ∈ blockedIpv6Nets)
    {net : IpNet} (hn : cidr text = some net) : net.contains (.v6 x) = false := by
  obtain ⟨h127,h120,h112⟩ := h
  have h100 : cidr "100::/64" = some ⟨.v6 0x01000000000000000000000000000000#128,64⟩ := by
    decide +kernel
  have h2001 : cidr "2001:db8::/32" = some ⟨.v6 0x20010db8000000000000000000000000#128,32⟩ := by
    decide +kernel
  have hfc00 : cidr "fc00::/7" = some ⟨.v6 0xfc000000000000000000000000000000#128,7⟩ := by
    decide +kernel
  have hfec0 : cidr "fec0::/10" = some ⟨.v6 0xfec00000000000000000000000000000#128,10⟩ := by
    decide +kernel
  simp only [blockedIpv6Nets,List.mem_cons,List.not_mem_nil,or_false] at ht
  rcases ht with rfl | rfl | rfl | rfl
  · obtain rfl := Option.some.inj (h100.symm.trans hn)
    exact beq_eq_false_iff_ne.mpr (shiftRight_ne (by decide) h120 (by decide))
  · obtain rfl := Option.some.inj (h2001.symm.trans hn)
    exact beq_eq_false_iff_ne.mpr (shiftRight_ne (by decide) h112 (by decide))
  · obtain rfl := Option.some.inj (hfc00.symm.trans hn)
    exact beq_eq_false_iff_ne.mpr (shiftRight_ne (by decide) h127 (by decide))
  · obtain rfl := Option.some.inj (hfec0.symm.trans hn)
    exact beq_eq_false_iff_ne.mpr (shiftRight_ne (by decide) h127 (by decide))

theorem matchesIpNet_lowTop {p : Parsers} (hp : ReadsIpv6Nets p) (h : LowTop x) :
    matchesIpNet p (.v6 x) blockedIpv6Nets = false := by
  refine List.any_eq_false.mpr (fun text ht => ?_)
  cases hn : p.ipNet text with
  | none => simp
  | some net =>
    rw [hp text ht] at hn
    simp [cidr_contains_lowTop h ht hn]

/-- Of the addresses without those bits the policy rejects the mapped ones, the loopback
and the unspecified address. -/
theorem isPublicIp_lowTop {p : Parsers} (hp : ReadsIpv6Nets p) (h : LowTop x) :
    isPublicIp p (.v6 x) = false ↔ (toIpv4Mapped x).isSome = true ∨ x = 1#128 ∨ x = 0#128 := by
  have hmulti : isMulticast x = false :=
    beq_eq_false_iff_ne.mpr (extract_ne (i := 127) (by decide) (by decide) h.1 (by decide))
  have hlocal : isUnicastLinkLocal x = false :=
    beq_eq_false_iff_ne.mpr (extract_ne (i := 127) (by decide) (by decide) h.1 (by decide))
  have hnets := matchesIpNet_lowTop hp h
  cases hm : toIpv4Mapped x with
  | some a => simp [isPublicIp,hm]
  | none =>
    simp only [isPublicIp,hm,hmulti,hlocal,hnets,IpAddr.isLoopback,isUnspecified,
      Option.isNone_none,Bool.true_and,Bool.not_false,Bool.and_true,Bool.and_eq_false_iff,
      Bool.not_eq_false',beq_iff_eq,Option.isSome_none,Bool.false_eq_true,false_or]

end Networks

section Forms

variable (a : BitVec 32)

theorem getLsbD_over (high : BitVec 96) (i : ℕ) :
    BitVec.getLsbD (w := 128) (high++a) (32+i) = high.getLsbD i := by
  have h := BitVec.getLsbD_append (x := high) (y := a) (i := 32+i)
  rwa [if_neg (by omega),Nat.add_sub_cancel_left] at h

theorem getLsbD_sixToFour (rest : BitVec 80) (i : ℕ) :
    ((Embedding.sixToFour rest).carry a).getLsbD (112+i) = (0x2002#16).getLsbD i := by
  have h := BitVec.getLsbD_append (x := 0x2002#16++a) (y := rest) (i := 112+i)
  rw [if_neg (by omega)] at h
  have hmid : (0x2002#16++a).getLsbD (112+i-80) = (0x2002#16).getLsbD i := by
    rw [show 112+i-80 = 32+i by omega,BitVec.getLsbD_append,if_neg (by omega),
      Nat.add_sub_cancel_left]
  exact h.trans hmid

theorem lowTop_carry (e : Embedding) : LowTop (e.carry a) := by
  cases e with
  | mapped => exact ⟨getLsbD_over a _ 95,getLsbD_over a _ 88,getLsbD_over a _ 80⟩
  | compatible => exact ⟨getLsbD_over a _ 95,getLsbD_over a _ 88,getLsbD_over a _ 80⟩
  | nat64 => exact ⟨getLsbD_over a _ 95,getLsbD_over a _ 88,getLsbD_over a _ 80⟩
  | sixToFour rest =>
    exact ⟨getLsbD_sixToFour a rest 15,getLsbD_sixToFour a rest 8,getLsbD_sixToFour a rest 0⟩

theorem toIpv4Mapped_mapped : (toIpv4Mapped (Embedding.mapped.carry a)).isSome = true := by
  have hhigh : BitVec.extractLsb' 32 96 (Embedding.mapped.carry a) = 0xffff#96 := by
    apply BitVec.eq_of_getLsbD_eq
    intro i hi
    rw [BitVec.getLsbD_extractLsb',decide_eq_true hi,Bool.true_and]
    exact getLsbD_over a _ i
  rw [toIpv4Mapped,if_pos hhigh]
  rfl

/-- An address with a bit set that neither the mapped form nor the loopback has. -/
theorem not_special {x : BitVec 128} (i : ℕ) (hi : 48 ≤ i) (hw : i < 128)
    (hx : x.getLsbD i = true) :
    ¬((toIpv4Mapped x).isSome = true ∨ x = 1#128 ∨ x = 0#128) := by
  rintro (hm | rfl | rfl)
  · have hne : x.extractLsb' 32 96 ≠ 0xffff#96 := by
      intro h
      have hb := congrArg (fun v => v.getLsbD (i-32)) h
      simp only [BitVec.getLsbD_extractLsb',Nat.add_sub_cancel' (show 32 ≤ i by omega),hx,
        Bool.and_true] at hb
      rw [decide_eq_true (by omega)] at hb
      have hbits : ∀ j < 96, 16 ≤ j → (0xffff#96).getLsbD j = false := by decide
      rw [hbits (i-32) (by omega) (by omega)] at hb
      cases hb
    rw [toIpv4Mapped,if_neg hne] at hm
    cases hm
  · have hbits : ∀ j < 128, 48 ≤ j → (1#128).getLsbD j = false := by decide
    rw [hbits i hw hi] at hx
    cases hx
  · simp at hx

theorem compatible_special : ((toIpv4Mapped (Embedding.compatible.carry a)).isSome = true ∨
    Embedding.compatible.carry a = 1#128 ∨ Embedding.compatible.carry a = 0#128) ↔
      a = 0#32 ∨ a = 1#32 := by
  have hmapped : toIpv4Mapped (Embedding.compatible.carry a) = none := by
    rw [toIpv4Mapped,if_neg]
    exact extract_ne (i := 32) (by decide) (by decide) (getLsbD_over a _ 0) (by decide)
  have hvalue : (Embedding.compatible.carry a).toNat = a.toNat := by
    have h := BitVec.toNat_append (0#96) a
    simp only [BitVec.toNat_ofNat,Nat.zero_mod,Nat.zero_shiftLeft,Nat.zero_or] at h
    exact h
  have hone : Embedding.compatible.carry a = 1#128 ↔ a = 1#32 := by
    rw [← BitVec.toNat_inj,← BitVec.toNat_inj,hvalue]
    rfl
  have hzero : Embedding.compatible.carry a = 0#128 ↔ a = 0#32 := by
    rw [← BitVec.toNat_inj,← BitVec.toNat_inj,hvalue]
    rfl
  rw [hmapped,hone,hzero]
  simp [or_comm]

end Forms

/-- Which addresses of the four forms are rejected. -/
theorem carry_rejected {p : Parsers} (hp : ReadsIpv6Nets p) (a : BitVec 32) (e : Embedding) :
    isPublicIp p (.v6 (e.carry a)) = false ↔
      e = .mapped ∨ (e = .compatible ∧ (a = 0#32 ∨ a = 1#32)) := by
  rw [isPublicIp_lowTop hp (lowTop_carry a e)]
  cases e with
  | mapped => simp [toIpv4Mapped_mapped]
  | compatible => simpa using compatible_special a
  | nat64 => simpa using not_special 114 (by decide) (by decide) (getLsbD_over a _ 82)
  | sixToFour rest =>
    simpa using not_special 113 (by decide) (by decide) (getLsbD_sixToFour a rest 1)

/-- A rejected IPv4 address stays rejected in the mapped form, and in the compatible form
when it is one of the two lowest; in every other form it gets through. -/
theorem carried_address_rejected_iff (p : Parsers) (hp : ReadsIpv6Nets p) (a : BitVec 32)
    (e : Embedding) :
    (isPublicIp p (.v4 a) = false → isPublicIp p (.v6 (e.carry a)) = false) ↔
      isPublicIp p (.v4 a) = true ∨ e = .mapped ∨
        (e = .compatible ∧ (a = 0#32 ∨ a = 1#32)) := by
  rw [carry_rejected hp]
  cases hv : isPublicIp p (.v4 a) <;> simp

theorem mapped_loopback_rejected :
    isPublicIp cidrParsers (.v4 0x7f000001#32) = false ∧
      isPublicIp cidrParsers (.v6 (Embedding.mapped.carry 0x7f000001#32)) = false := by
  have hv : isPublicIp cidrParsers (.v4 0x7f000001#32) = false := by decide +kernel
  exact ⟨hv,(carried_address_rejected_iff cidrParsers (fun _ _ => rfl) 0x7f000001#32 .mapped).mpr
    (Or.inr (Or.inl rfl)) hv⟩

/-- The loopback address and one of a private network are rejected, and get through in the
three other forms. -/
theorem carried_addresses_get_through :
    isPublicIp cidrParsers (.v4 0x7f000001#32) = false ∧
      isPublicIp cidrParsers (.v4 0x0a000001#32) = false ∧
      parseIpAddr "64:ff9b::127.0.0.1" = some (.v6 (Embedding.nat64.carry 0x7f000001#32)) ∧
      parseIpAddr "::10.0.0.1" = some (.v6 (Embedding.compatible.carry 0x0a000001#32)) ∧
      parseIpAddr "2002:a00:1::" = some (.v6 ((Embedding.sixToFour 0#80).carry 0x0a000001#32)) ∧
      isPublicIp cidrParsers (.v6 (Embedding.nat64.carry 0x7f000001#32)) = true ∧
      isPublicIp cidrParsers (.v6 (Embedding.compatible.carry 0x0a000001#32)) = true ∧
      isPublicIp cidrParsers (.v6 ((Embedding.sixToFour 0#80).carry 0x0a000001#32)) = true := by
  decide +kernel

end YinShu.EmbeddedAddresses
