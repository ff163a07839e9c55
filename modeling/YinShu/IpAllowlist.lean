import YinShu.LiteralHosts
import YinShu.Settings
import YinShu.TextPieces

/-!
# The IP allowlist

An entry is an address or a network. Entries are trimmed when they are checked
and when they are normalized, and matched against a client as they stand. A
list of checked entries admits the same clients after normalization as its
trimmed texts say, whatever the parser of networks makes of other texts.
-/

set_option autoImplicit false

namespace YinShu.IpAllowlist
open YinShu.TextScan YinShu.TextPieces YinShu.InternetAddress YinShu.Protocol YinShu.Settings
open YinShu.LiteralHosts

section Matching

variable (p : Parsers)

def entryMatchesClientIp (entry : String) (clientIp : IpAddr) : Bool :=
  match parseIpAddr entry with
  | some ip => ip == clientIp
  | none =>
    match p.ipNet entry with
    | some network => network.contains clientIp
    | none => false

def isClientIpAllowed (clientIp : IpAddr) (entries : List String) : Bool :=
  clientIp.isLoopback || entries.any (fun entry => entryMatchesClientIp p entry clientIp)

/-- The text is the address, or a network with the address that is not everything. -/
def Denotes (text : String) (ip : IpAddr) : Prop :=
  parseIpAddr text = some ip ∨
    ∃ net, p.ipNet text = some net ∧ 1 ≤ net.prefixLen ∧ net.contains ip = true

/-- A text without a slash is no network. -/
def NetsHaveSlash : Prop := ∀ text net, p.ipNet text = some net → '/' ∈ text.toList

end Matching

section Slash

theorem readDigits_slash (cs : List Char) (value count : ℕ) (h : '/' ∈ cs) (radix : ℕ) :
    '/' ∈ (readDigits radix cs value count).2.2 := by
  induction cs generalizing value count with
  | nil => cases h
  | cons c cs ih =>
    have hslash : digit radix '/' = none := by simp [digit,show digitValue '/' = none by decide]
    cases hd : digit radix c with
    | none => simpa [readDigits,hd] using h
    | some d =>
      have hne : '/' ≠ c := by
        rintro rfl
        rw [hslash] at hd
        cases hd
      simpa [readDigits,hd] using ih _ _ (List.mem_of_ne_of_mem hne h)

theorem readNumber_slash {radix maxDigits bound n : ℕ} {zero : Bool} {cs rest : List Char}
    (hr : readNumber radix maxDigits bound zero cs = some (n,rest)) (h : '/' ∈ cs) :
    '/' ∈ rest := by
  have hd := readDigits_slash cs 0 0 h radix
  unfold readNumber at hr
  split at hr
  rename_i value count tail heq
  rw [heq] at hd
  split_ifs at hr
  cases hr
  exact hd

theorem readGivenChar_slash {c : Char} (hc : c ≠ '/') {cs rest : List Char}
    (hr : readGivenChar c cs = some rest) (h : '/' ∈ cs) : '/' ∈ rest := by
  cases cs with
  | nil => cases hr
  | cons d cs =>
    simp only [readGivenChar,Option.ite_none_right_eq_some,Option.some.injEq] at hr
    obtain ⟨rfl,rfl⟩ := hr
    exact List.mem_of_ne_of_mem hc.symm h

theorem readSeparator_slash {c : Char} (hc : c ≠ '/') {index : ℕ} {cs rest : List Char}
    (hr : readSeparator c index cs = some rest) (h : '/' ∈ cs) : '/' ∈ rest := by
  unfold readSeparator at hr
  split_ifs at hr
  · cases hr
    exact h
  · exact readGivenChar_slash hc hr h

theorem readIpv4_slash {cs rest : List Char} {a : BitVec 32}
    (hr : readIpv4 cs = some (a,rest)) (h : '/' ∈ cs) : '/' ∈ rest := by
  simp only [readIpv4,Option.bind_eq_bind,Option.bind_eq_some_iff,Prod.exists] at hr
  obtain ⟨_,_,h1,_,d1,_,_,h2,_,d2,_,_,h3,_,d3,_,_,h4,he⟩ := hr
  cases he
  refine readNumber_slash h4 (readGivenChar_slash (by decide) d3 ?_)
  refine readNumber_slash h3 (readGivenChar_slash (by decide) d2 ?_)
  exact readNumber_slash h2 (readGivenChar_slash (by decide) d1 (readNumber_slash h1 h))

theorem readGroups_slash (left index : ℕ) (cs : List Char) (h : '/' ∈ cs) :
    '/' ∈ (readGroups left index cs).2.2 := by
  induction left generalizing index cs with
  | zero => exact h
  | succ left ih =>
    unfold readGroups
    dsimp only
    generalize hi : (if 0 < left then (readSeparator ':' index cs).bind readIpv4 else none) = ipv4
    cases ipv4 with
    | some r =>
      split_ifs at hi
      obtain ⟨mid,hm,hr⟩ := Option.bind_eq_some_iff.mp hi
      exact readIpv4_slash hr (readSeparator_slash (by decide) hm h)
    | none =>
      cases hn : (readSeparator ':' index cs).bind (readNumber 16 4 65536 true) with
      | none => exact h
      | some r =>
        obtain ⟨mid,hm,hr⟩ := Option.bind_eq_some_iff.mp hn
        exact ih _ _ (readNumber_slash hr (readSeparator_slash (by decide) hm h))

theorem readIpv6_slash {cs rest : List Char} {a : BitVec 128}
    (hr : readIpv6 cs = some (a,rest)) (h : '/' ∈ cs) : '/' ∈ rest := by
  have hf := readGroups_slash 8 0 cs h
  unfold readIpv6 at hr
  split at hr
  rename_i front embedded tail heq
  rw [heq] at hf
  split_ifs at hr
  · cases hr
    exact hf
  · simp only [Option.bind_eq_bind,Option.bind_eq_some_iff] at hr
    obtain ⟨c1,h1,c2,h2,hr⟩ := hr
    have hb := readGroups_slash (7-front.length) 0 c2
      (readGivenChar_slash (by decide) h2 (readGivenChar_slash (by decide) h1 hf))
    cases hr
    exact hb

theorem parseIpAddr_slash {text : String} (h : '/' ∈ text.toList) : parseIpAddr text = none := by
  cases hp : parseIpAddr text with
  | none => rfl
  | some a =>
    unfold parseIpAddr at hp
    split at hp
    · rename_i b heq
      unfold readIpAddr at heq
      split at heq
      · rename_i v4 rest hr
        cases heq
        exact absurd (readIpv4_slash hr h) (by simp)
      · obtain ⟨⟨v6,rest⟩,hr,he⟩ := Option.map_eq_some_iff.mp heq
        cases he
        exact absurd (readIpv6_slash hr h) (by simp)
    · cases hp

end Slash

/-- The loop appends the first occurrences of the trimmed entries it has not seen. -/
theorem normalizeEntries_eq (entries normalized : List String) :
    normalizeEntries entries normalized = normalized++((entries.map trim).filter (fun text =>
      text ≠ "" ∧ text ≠ requiredLoopbackIp ∧ text ∉ normalized)).eraseDups := by
  induction entries generalizing normalized with
  | nil => simp [normalizeEntries]
  | cons entry entries ih =>
    unfold normalizeEntries
    split_ifs with hblank hseen
    · rw [ih,List.map_cons,List.filter_cons_of_neg]
      simp only [decide_eq_true_eq]
      rintro ⟨hb,hl,-⟩
      exact hblank.elim hb hl
    · rw [ih,List.map_cons,List.filter_cons_of_neg]
      simp [hseen]
    · rw [ih,List.map_cons,List.filter_cons_of_pos]
      · rw [List.eraseDups_cons,List.filter_filter,List.append_assoc,List.singleton_append]
        refine congrArg (fun rest => normalized++trim entry::List.eraseDups rest)
          (List.filter_congr (fun text _ => ?_))
        rw [Bool.eq_iff_iff]
        simp only [ne_eq,List.mem_append,List.mem_singleton,not_or,decide_eq_true_eq,
          Bool.and_eq_true,Bool.not_eq_true',beq_eq_false_iff_ne]
        constructor
        · rintro ⟨hb,hl,hn,he⟩
          exact ⟨he,hb,hl,hn⟩
        · rintro ⟨he,hb,hl,hn⟩
          exact ⟨hb,hl,hn,he⟩
      · simpa [hseen] using hblank

section Checked

variable {p : Parsers}

theorem validateAllowedIpEntry_trim (entry : String) :
    validateAllowedIpEntry p (trim entry) = validateAllowedIpEntry p entry := by
  simp only [validateAllowedIpEntry,trim_idempotent]

/-- What a checked text is: a network without the whole address space, or an address. -/
theorem validateAllowedIpEntry_ok {entry : String} (h : validateAllowedIpEntry p entry = .ok ()) :
    trim entry ≠ "" ∧
      (('/' ∈ (trim entry).toList ∧ ∃ net, p.ipNet (trim entry) = some net ∧ 1 ≤ net.prefixLen) ∨
        ('/' ∉ (trim entry).toList ∧ ∃ ip, parseIpAddr (trim entry) = some ip)) := by
  unfold validateAllowedIpEntry at h
  dsimp only at h
  split_ifs at h with hb hany hs
  · refine ⟨hb,Or.inl ⟨hs,?_⟩⟩
    cases hn : p.ipNet (trim entry) with
    | none => simp [hn] at h
    | some net =>
      refine ⟨net,rfl,Nat.one_le_iff_ne_zero.mpr (fun hz => ?_)⟩
      simp [hn,hz] at h
  · refine ⟨hb,Or.inr ⟨hs,?_⟩⟩
    cases hn : parseIpAddr (trim entry) with
    | none => simp [hn] at h
    | some ip => exact ⟨ip,rfl⟩

theorem entryMatchesClientIp_checked (hp : NetsHaveSlash p) {entry : String}
    (h : validateAllowedIpEntry p entry = .ok ()) (ip : IpAddr) :
    entryMatchesClientIp p (trim entry) ip = true ↔ Denotes p (trim entry) ip := by
  unfold entryMatchesClientIp Denotes
  obtain ⟨-,⟨hs,net,hn,hl⟩ | ⟨hs,a,ha⟩⟩ := validateAllowedIpEntry_ok h
  · simp [parseIpAddr_slash hs,hn,hl]
  · have hnone : ∀ net, p.ipNet (trim entry) ≠ some net := fun net hn => hs (hp _ net hn)
    simp [ha,hnone]

theorem requiredLoopbackIp_checked : validateAllowedIpEntry p requiredLoopbackIp = .ok () := by
  have htrim : trim requiredLoopbackIp = requiredLoopbackIp := by decide
  have hip : (parseIpAddr requiredLoopbackIp).isSome = true := by decide
  obtain ⟨ip,hip⟩ := Option.isSome_iff_exists.mp hip
  unfold validateAllowedIpEntry
  rw [htrim]
  dsimp only
  rw [if_neg (by decide),if_neg (by decide),if_neg (by decide),hip]

theorem requiredLoopbackIp_matches {ip : IpAddr}
    (h : entryMatchesClientIp p requiredLoopbackIp ip = true) : ip.isLoopback = true := by
  have hip : parseIpAddr requiredLoopbackIp = some (.v4 0x7f000001#32) := by decide
  simp only [entryMatchesClientIp,hip,beq_iff_eq] at h
  subst h
  decide

end Checked

/-- A list of checked entries keeps its meaning under normalization. -/
theorem normalized_allowlist_kept (p : Parsers) (hp : NetsHaveSlash p) (entries : List String)
    (h : ∀ entry ∈ entries, validateAllowedIpEntry p entry = .ok ()) :
    normalizeAllowedIps (normalizeAllowedIps entries) = normalizeAllowedIps entries ∧
    (normalizeAllowedIps entries).Nodup ∧
    normalizeAllowedIps entries = requiredLoopbackIp::
      ((entries.map trim).filter (fun text => text ≠ requiredLoopbackIp)).eraseDups ∧
    (∀ entry ∈ normalizeAllowedIps entries, validateAllowedIpEntry p entry = .ok ()) ∧
    ∀ ip, isClientIpAllowed p ip (normalizeAllowedIps entries) = true ↔
      ip.isLoopback = true ∨ ∃ entry ∈ entries, Denotes p (trim entry) ip := by
  have hmem := fun text => mem_normalizeAllowedIps text entries
  refine ⟨normalizeAllowedIps_idempotent entries,?_,?_,?_,?_⟩
  · obtain ⟨rest,hr,-,hd⟩ := normalizeEntries_settled entries [requiredLoopbackIp]
      (by simp [Settled]) rfl (by simp)
    rw [normalizeAllowedIps,hr]
    exact hd
  · rw [normalizeAllowedIps,normalizeEntries_eq,List.singleton_append]
    congr 2
    refine List.filter_congr (fun text ht => ?_)
    obtain ⟨entry,he,rfl⟩ := List.mem_map.mp ht
    have hne := (validateAllowedIpEntry_ok (h entry he)).1
    simp [hne]
  · intro text ht
    rcases (hmem text).mp ht with rfl | ⟨entry,he,rfl,-⟩
    · exact requiredLoopbackIp_checked
    · rw [validateAllowedIpEntry_trim]
      exact h entry he
  · intro ip
    simp only [isClientIpAllowed,Bool.or_eq_true,List.any_eq_true]
    constructor
    · rintro (hl | ⟨text,ht,hm⟩)
      · exact Or.inl hl
      · rcases (hmem text).mp ht with rfl | ⟨entry,he,rfl,-⟩
        · exact Or.inl (requiredLoopbackIp_matches hm)
        · exact Or.inr ⟨entry,he,(entryMatchesClientIp_checked hp (h entry he) ip).mp hm⟩
    · rintro (hl | ⟨entry,he,hd⟩)
      · exact Or.inl hl
      · refine Or.inr ⟨trim entry,(hmem _).mpr (Or.inr ⟨entry,he,rfl,?_⟩),?_⟩
        · exact (validateAllowedIpEntry_ok (h entry he)).1
        · exact (entryMatchesClientIp_checked hp (h entry he) ip).mpr hd

theorem cidr_hasSlash : NetsHaveSlash cidrParsers := by
  intro text net h
  have hc : cidr text = some net := h
  unfold cidr at hc
  split at hc
  · cases hc
  · rename_i front back hs
    exact splitOnceChars_mem hs

/-- Entries with blanks around them, twice and in the middle; a client of the network
passes and one outside of it does not. -/
def officeEntries : List String := [" 192.168.1.0/24 ","127.0.0.1","10.0.0.8","192.168.1.0/24\t"]

theorem officeEntries_checked :
    ∀ entry ∈ officeEntries, validateAllowedIpEntry cidrParsers entry = .ok () := by
  have h : officeEntries.all (fun entry =>
      (validateAllowedIpEntry cidrParsers entry).toOption.isSome) = true := by decide +kernel
  intro entry he
  have hs := List.all_eq_true.mp h entry he
  cases hv : validateAllowedIpEntry cidrParsers entry with
  | error text => simp [hv,Except.toOption] at hs
  | ok u => rfl

theorem officeEntries_kept :
    normalizeAllowedIps officeEntries = ["127.0.0.1","192.168.1.0/24","10.0.0.8"] ∧
      isClientIpAllowed cidrParsers (.v4 0xc0a80114#32) (normalizeAllowedIps officeEntries) =
        true ∧
      ¬∃ entry ∈ officeEntries, Denotes cidrParsers (trim entry) (.v4 0xc0a80214#32) := by
  obtain ⟨-,-,-,-,hm⟩ :=
    normalized_allowlist_kept cidrParsers cidr_hasSlash officeEntries officeEntries_checked
  refine ⟨by decide +kernel,(hm _).mpr (Or.inr ?_),fun hd => ?_⟩
  · exact ⟨" 192.168.1.0/24 ",by decide,Or.inr ⟨⟨.v4 0xc0a80100#32,24⟩,by decide +kernel⟩⟩
  · exact absurd ((hm (.v4 0xc0a80214#32)).mpr (Or.inr hd)) (by decide +kernel)

end YinShu.IpAllowlist
