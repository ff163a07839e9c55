import YinShu.InternetAddress

/-!
# Texts of literal addresses

The canonical text of an IPv4 address is four decimal octets. The reader takes
it back to the address, and so two addresses never share a text. A text that
opens with a bracket is no address at all.
-/

set_option autoImplicit false

namespace YinShu.AddressText
open YinShu.InternetAddress

def octet (a : BitVec 32) (index : ℕ) : ℕ := (a.extractLsb' (8*index) 8).toNat

def decimal (n : ℕ) : List Char := (toString n).toList

def dottedChars (a : BitVec 32) : List Char :=
  decimal (octet a 3)++ '.'::(decimal (octet a 2)++ '.'::(decimal (octet a 1)++ '.'::
    decimal (octet a 0)))

def dottedQuad (a : BitVec 32) : String := String.ofList (dottedChars a)

theorem octet_lt (a : BitVec 32) (index : ℕ) : octet a index < 256 := BitVec.isLt _

theorem ofNat_octets (a : BitVec 32) :
    BitVec.ofNat 32 (((octet a 3*256+octet a 2)*256+octet a 1)*256+octet a 0) = a := by
  apply BitVec.eq_of_toNat_eq
  have ha := a.isLt
  simp only [octet, BitVec.extractLsb'_toNat, BitVec.toNat_ofNat, Nat.shiftRight_eq_div_pow]
  omega

/-- What stands after a number does not go on with a digit. -/
def NoDigit (rest : List Char) : Prop := ∀ c ∈ rest.head?, digit 10 c = none

theorem readDigits_append (ds rest : List Char) (value count : ℕ) (hr : NoDigit rest)
    (hd : (readDigits 10 ds value count).2.2 = []) :
    readDigits 10 (ds++rest) value count =
      ((readDigits 10 ds value count).1,(readDigits 10 ds value count).2.1,rest) := by
  induction ds generalizing value count with
  | nil =>
    cases rest with
    | nil => rfl
    | cons c rest => simp [readDigits,hr c rfl]
  | cons d ds ih =>
    cases hv : digit 10 d with
    | none => simp [readDigits,hv] at hd
    | some v =>
      simp only [readDigits,hv] at hd
      simpa [readDigits,hv] using ih _ _ hd

theorem readDigits_decimal : ∀ n < 256, (readDigits 10 (decimal n) 0 0).1 = n ∧
    (readDigits 10 (decimal n) 0 0).2.2 = [] ∧
    0 < (readDigits 10 (decimal n) 0 0).2.1 ∧ (readDigits 10 (decimal n) 0 0).2.1 ≤ 3 ∧
    ((decimal n).head? = some '0' → (readDigits 10 (decimal n) 0 0).2.1 = 1) := by
  decide +kernel

theorem decimal_ne_nil {n : ℕ} (hn : n < 256) : decimal n ≠ [] := by
  intro he
  have h := (readDigits_decimal n hn).2.2.1
  simp [he,readDigits] at h

theorem readNumber_decimal {n : ℕ} (hn : n < 256) {rest : List Char} (hr : NoDigit rest) :
    readNumber 10 3 256 false (decimal n++rest) = some (n,rest) := by
  obtain ⟨hv,hend,hpos,hlen,hzero⟩ := readDigits_decimal n hn
  have hhead : (decimal n++rest).head? = (decimal n).head? := by
    cases hc : decimal n with
    | nil => exact absurd hc (decimal_ne_nil hn)
    | cons c cs => rfl
  unfold readNumber
  rw [readDigits_append _ _ _ _ hr hend,hv,hhead]
  have hcount : ¬((readDigits 10 (decimal n) 0 0).2.1 = 0 ∨
      3 < (readDigits 10 (decimal n) 0 0).2.1) := by omega
  have hlead : ((decimal n).head? == some '0' &&
      decide (1 < (readDigits 10 (decimal n) 0 0).2.1)) = false := by
    by_cases hz : (decimal n).head? = some '0'
    · simp [hzero hz]
    · simp [hz]
  simp only [hcount,if_false,Bool.not_false,Bool.true_and,hlead,Bool.false_eq_true,
    Nat.not_le.mpr hn]

theorem noDigit_dot (rest : List Char) : NoDigit ('.'::rest) := by
  intro c hc
  obtain rfl : '.' = c := by simpa using hc
  decide

theorem readIpv4_dottedChars (a : BitVec 32) : readIpv4 (dottedChars a) = some (a,[]) := by
  have hlast : readNumber 10 3 256 false (decimal (octet a 0)) = some (octet a 0,[]) := by
    simpa using readNumber_decimal (octet_lt a 0) (show NoDigit [] by simp [NoDigit])
  simp [readIpv4,dottedChars,readNumber_decimal (octet_lt a _) (noDigit_dot _),readGivenChar,hlast,
    ofNat_octets]

theorem parseIpAddr_dottedQuad (a : BitVec 32) : parseIpAddr (dottedQuad a) = some (.v4 a) := by
  simp [parseIpAddr,readIpAddr,dottedQuad,readIpv4_dottedChars]

theorem dottedQuad_injective (a b : BitVec 32) (h : dottedQuad a = dottedQuad b) : a = b := by
  have hp := parseIpAddr_dottedQuad a
  rw [h,parseIpAddr_dottedQuad] at hp
  simpa using hp.symm

theorem decimal_eq (n : ℕ) : decimal n = Nat.toDigits 10 n := by
  simp [decimal,Nat.repr]

theorem mem_decimal {n : ℕ} {c : Char} (hc : c ∈ decimal n) : c.isDigit = true := by
  rw [decimal_eq] at hc
  exact Nat.isDigit_of_mem_toDigits (by decide) (by decide) hc

theorem mem_dottedChars {a : BitVec 32} {c : Char} (hc : c ∈ dottedChars a) :
    c.isDigit = true ∨ c = '.' := by
  simp only [dottedChars, List.mem_append, List.mem_cons] at hc
  rcases hc with hc | rfl | hc | rfl | hc | rfl | hc
  · exact Or.inl (mem_decimal hc)
  · exact Or.inr rfl
  · exact Or.inl (mem_decimal hc)
  · exact Or.inr rfl
  · exact Or.inl (mem_decimal hc)
  · exact Or.inr rfl
  · exact Or.inl (mem_decimal hc)

theorem parseIpAddr_bracket (text : String) (h : text.toList.head? = some '[') :
    parseIpAddr text = none := by
  obtain ⟨rest,hrest⟩ : ∃ rest, text.toList = '['::rest := by
    cases hl : text.toList with
    | nil => simp [hl] at h
    | cons c cs => exact ⟨cs,by simpa [hl] using h⟩
  have hd10 : digit 10 '[' = none := by decide
  have hd16 : digit 16 '[' = none := by decide
  have h4 : readIpv4 ('['::rest) = none := by
    simp [readIpv4,readNumber,readDigits,hd10]
  have h16 : readNumber 16 4 65536 true ('['::rest) = none := by
    simp [readNumber,readDigits,hd16]
  have h6 : readIpv6 ('['::rest) = none := by
    simp [readIpv6,readGroups,readSeparator,h4,h16,readGivenChar]
  simp [parseIpAddr,hrest,readIpAddr,h4,h6]

end YinShu.AddressText
