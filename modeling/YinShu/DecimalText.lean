import Mathlib.Data.Rat.Floor
import YinShu.TextPieces

/-!
# Decimal numbers in a text

A numeral is a run of digits with at most one point in it. It is read back as
its value, whatever stands before and after it, as long as what touches it is
neither a digit nor a point. A number of hundredths has a numeral with at most
two digits after the point, and none of them a trailing zero.
-/

set_option autoImplicit false

namespace YinShu.DecimalText
open YinShu.TextScan YinShu.TextPieces

structure Numeral where
  whole : List Char
  fraction : Option (List Char)
  digits : ∀ c ∈ whole++fraction.getD [], c.isDigit = true
  nonempty : whole++fraction.getD [] ≠ []

def Numeral.text (n : Numeral) : List Char :=
  match n.fraction with
  | none => n.whole
  | some ds => n.whole++ '.'::ds

def Numeral.value (n : Numeral) : ℚ :=
  Nat.ofDigitChars 10 (n.whole++n.fraction.getD []) 0/10^(n.fraction.getD []).length

def isNumberChar (c : Char) : Bool := c.isDigit || c == '.'

/-- The number that a text of digits and points stands for. -/
def parseDecimal (cs : List Char) : Option ℚ :=
  let parts := (splitOnceChars '.' cs).getD (cs,[])
  if (parts.1++parts.2).all Char.isDigit && !(parts.1++parts.2).isEmpty then
    some (Nat.ofDigitChars 10 (parts.1++parts.2) 0/10^parts.2.length)
  else none

def trailingNumber (cs : List Char) : Option ℚ := parseDecimal (cs.rtakeWhile isNumberChar)

def leadingNumber (cs : List Char) : Option ℚ := parseDecimal (cs.takeWhile isNumberChar)

/-- A number of hundredths. -/
def Hundredths (x : ℚ) : Prop := ∃ n : ℕ, x = n/100

section Reading

variable (n : Numeral)

theorem point_not_digit {cs : List Char} (h : ∀ c ∈ cs, c.isDigit = true) : '.' ∉ cs :=
  fun hm => absurd (h '.' hm) (by decide)

theorem text_chars : ∀ c ∈ n.text, isNumberChar c = true := by
  obtain ⟨whole,fraction,hd,-⟩ := n
  intro c hc
  cases fraction with
  | none => simp [isNumberChar,hd c (List.mem_append_left _ hc)]
  | some ds =>
    rcases List.mem_append.mp hc with hc | hc
    · simp [isNumberChar,hd c (List.mem_append_left _ hc)]
    · rcases List.mem_cons.mp hc with rfl | hc
      · rfl
      · simp [isNumberChar,hd c (List.mem_append_right _ hc)]

theorem parseDecimal_text : parseDecimal n.text = some n.value := by
  obtain ⟨whole,fraction,hd,hn⟩ := n
  have hw : '.' ∉ whole := point_not_digit (fun c hc => hd c (List.mem_append_left _ hc))
  have hall : (whole++fraction.getD []).all Char.isDigit = true := List.all_eq_true.mpr hd
  have hsplit : (splitOnceChars '.' (Numeral.text ⟨whole,fraction,hd,hn⟩)).getD
      (Numeral.text ⟨whole,fraction,hd,hn⟩,[]) = (whole,fraction.getD []) := by
    cases fraction with
    | none =>
      have hnone : splitOnceChars '.' whole = none := by
        cases h : splitOnceChars '.' whole with
        | none => rfl
        | some parts => exact absurd (splitOnceChars_mem h) hw
      simp [Numeral.text,hnone]
    | some ds => simp [Numeral.text,splitOnceChars_append hw]
  unfold parseDecimal
  rw [hsplit]
  simp only [hall,Bool.true_and,Numeral.value]
  rw [if_pos (by simpa using hn)]

theorem parseDecimal_nonneg {cs : List Char} {x : ℚ} (h : parseDecimal cs = some x) : 0 ≤ x := by
  unfold parseDecimal at h
  dsimp only at h
  split_ifs at h
  cases h
  positivity

theorem trailingNumber_append {front : List Char}
    (hf : ∀ c, front.getLast? = some c → isNumberChar c = false) :
    trailingNumber (front++n.text) = some n.value := by
  have htake : (front++n.text).rtakeWhile isNumberChar = n.text := by
    rw [List.rtakeWhile,List.reverse_append,
      List.takeWhile_append_of_pos (fun c hc => text_chars n c (List.mem_reverse.mp hc))]
    cases hr : front.reverse with
    | nil => simp
    | cons c cs =>
      have hc := hf c (by rw [← List.head?_reverse,hr]; rfl)
      simp [hc]
  rw [trailingNumber,htake,parseDecimal_text]

theorem leadingNumber_text : leadingNumber n.text = some n.value := by
  rw [leadingNumber,List.takeWhile_eq_self_iff.mpr (fun c hc => text_chars n c hc),
    parseDecimal_text]

end Reading

section Writing

variable {w d e : ℕ}

theorem toDigits_isDigit (n : ℕ) : ∀ c ∈ Nat.toDigits 10 n, c.isDigit = true :=
  fun _ hc => Nat.isDigit_of_mem_toDigits (by decide) (by decide) hc

theorem digitChar_spec : ∀ d < 10, (Nat.digitChar d).isDigit = true ∧
    (Nat.digitChar d == '.') = false ∧ ((Nat.digitChar d == '0') = true ↔ d = 0) := by
  decide

def Numeral.ofNat (n : ℕ) : Numeral where
  whole := Nat.toDigits 10 n
  fraction := none
  digits := by simpa using toDigits_isDigit n
  nonempty := by simp [Nat.toDigits_ne_nil]

/-- A whole number with digits after the point. -/
def Numeral.withDigits (n : ℕ) (ds : List ℕ) (hds : ∀ d ∈ ds, d < 10) : Numeral where
  whole := Nat.toDigits 10 n
  fraction := some (ds.map Nat.digitChar)
  digits c hc := by
    rcases List.mem_append.mp hc with hc | hc
    · exact toDigits_isDigit n c hc
    · obtain ⟨d,hd,rfl⟩ := List.mem_map.mp hc
      exact (digitChar_spec d (hds d hd)).1
  nonempty := by simp [Nat.toDigits_ne_nil]

theorem ofNat_value (n : ℕ) : (Numeral.ofNat n).value = n := by
  simp [Numeral.value,Numeral.ofNat]

theorem withDigits_one (hd : ∀ x ∈ [d], x < 10) :
    (Numeral.withDigits w [d] hd).value = (w*10+d : ℕ)/10 := by
  have hlt : d < 10 := hd d (by simp)
  simp [Numeral.value,Numeral.withDigits,Nat.ofDigitChars_append,
    Nat.ofDigitChars_cons_digitChar_of_lt_ten hlt,Nat.mul_comm 10]

theorem withDigits_two (hd : ∀ x ∈ [d,e], x < 10) :
    (Numeral.withDigits w [d,e] hd).value = ((w*10+d)*10+e : ℕ)/100 := by
  have hdlt : d < 10 := hd d (by simp)
  have helt : e < 10 := hd e (by simp)
  simp [Numeral.value,Numeral.withDigits,Nat.ofDigitChars_append,
    Nat.ofDigitChars_cons_digitChar_of_lt_ten hdlt,
    Nat.ofDigitChars_cons_digitChar_of_lt_ten helt,Nat.mul_comm 10]
  norm_num

/-- The text of hundredths with both digits after the point. -/
def twoDigits (w d e : ℕ) : List Char :=
  Nat.toDigits 10 w++['.',Nat.digitChar d,Nat.digitChar e]

def trimmed (cs : List Char) : List Char := (cs.rdropWhile (· == '0')).rdropWhile (· == '.')

theorem trimmed_zero (front : List Char) :
    trimmed (front++[Nat.digitChar 0]) = trimmed front := by
  rw [trimmed,List.rdropWhile_concat_pos _ _ _ (by rfl),trimmed]

theorem trimmed_digit (front : List Char) (hd : d < 10) (hz : d ≠ 0) :
    trimmed (front++[Nat.digitChar d]) = front++[Nat.digitChar d] := by
  obtain ⟨-,hpoint,hzero⟩ := digitChar_spec d hd
  have hkeep : (front++[Nat.digitChar d]).rdropWhile (· == '0') = front++[Nat.digitChar d] :=
    List.rdropWhile_concat_neg _ _ _ (fun h => hz (hzero.mp h))
  rw [trimmed,hkeep]
  exact List.rdropWhile_concat_neg _ _ _ (by simp [hpoint])

theorem trimmed_point (n : ℕ) : trimmed (Nat.toDigits 10 n++['.']) = Nat.toDigits 10 n := by
  have hkeep : (Nat.toDigits 10 n).rdropWhile (· == '.') = Nat.toDigits 10 n := by
    rw [List.rdropWhile_eq_self_iff]
    intro hne hc
    have hdigit := toDigits_isDigit n _ (List.getLast_mem hne)
    rw [beq_iff_eq.mp hc] at hdigit
    cases hdigit
  have hstay : (Nat.toDigits 10 n++['.']).rdropWhile (· == '0') = Nat.toDigits 10 n++['.'] :=
    List.rdropWhile_concat_neg _ _ _ (by decide)
  rw [trimmed,hstay,List.rdropWhile_concat_pos _ _ _ (by rfl),hkeep]

/-- The text without the zeros at its end is a numeral of the same number. -/
theorem trimmed_twoDigits (hd : d < 10) (he : e < 10) : ∃ n : Numeral,
    trimmed (twoDigits w d e) = n.text ∧ n.value = ((w*10+d)*10+e : ℕ)/100 := by
  have hone : twoDigits w d e = Nat.toDigits 10 w++['.',Nat.digitChar d]++[Nat.digitChar e] := by
    simp [twoDigits]
  have htwo : Nat.toDigits 10 w++['.',Nat.digitChar d] =
      Nat.toDigits 10 w++['.']++[Nat.digitChar d] := by
    simp
  by_cases hez : e = 0
  · subst hez
    by_cases hdz : d = 0
    · subst hdz
      refine ⟨Numeral.ofNat w,?_,?_⟩
      · rw [hone,trimmed_zero,htwo,trimmed_zero,trimmed_point]
        rfl
      · rw [ofNat_value]
        push_cast
        ring
    · have hds : ∀ x ∈ [d], x < 10 := by simpa using hd
      refine ⟨Numeral.withDigits w [d] hds,?_,?_⟩
      · rw [hone,trimmed_zero,htwo,trimmed_digit _ hd hdz]
        simp [Numeral.text,Numeral.withDigits]
      · rw [withDigits_one hds]
        push_cast
        ring
  · have hds : ∀ x ∈ [d,e], x < 10 := by simp [hd,he]
    refine ⟨Numeral.withDigits w [d,e] hds,?_,withDigits_two hds⟩
    rw [hone,trimmed_digit _ he hez]
    simp [Numeral.text,Numeral.withDigits]

end Writing

end YinShu.DecimalText
