import Mathlib.Algebra.Group.Nat.Defs
import Mathlib.Data.List.DropRight

/-!
# The order of decimal texts

Numbers written with a fixed count of digits are ordered as their texts. A
fraction without its trailing zeros is not: followed by a character above the
digits, a text that goes on with more digits comes before the one that stops.
That is the only case in which the two orders disagree.
-/

set_option autoImplicit false

namespace YinShu.DecimalOrder

section Lexicographic

variable {u v s t : List Char}

theorem append_lt_append_iff (h : u.length = v.length) :
    u++s < v++t ↔ u < v ∨ (u = v ∧ s < t) := by
  induction u generalizing v with
  | nil =>
    obtain rfl := List.length_eq_zero_iff.mp h.symm
    simp
  | cons a u ih =>
    cases v with
    | nil => cases h
    | cons b v =>
      simp only [List.cons_append,List.cons_lt_cons_iff,ih (Nat.succ.inj h),List.cons.injEq]
      tauto

/-- Two texts that part at some character are ordered there, whatever follows. -/
theorem append_lt_append_of_part (hu : ¬u <+: v) (hv : ¬v <+: u) :
    u++s < v++t ↔ u < v := by
  induction u generalizing v with
  | nil => exact absurd (List.nil_prefix) hu
  | cons a u ih =>
    cases v with
    | nil => exact absurd (List.nil_prefix) hv
    | cons b v =>
      simp only [List.cons_append,List.cons_lt_cons_iff]
      by_cases hab : a = b
      · subst hab
        rw [ih (fun h => hu (List.cons_prefix_cons.mpr ⟨rfl,h⟩))
          (fun h => hv (List.cons_prefix_cons.mpr ⟨rfl,h⟩))]
      · simp [hab]

end Lexicographic

def fixedDigits : ℕ → ℕ → List Char
  | 0, _ => []
  | width+1, n => fixedDigits width (n/10)++[Nat.digitChar (n%10)]

theorem length_fixedDigits (width n : ℕ) : (fixedDigits width n).length = width := by
  induction width generalizing n with
  | zero => rfl
  | succ width ih => simp [fixedDigits,ih]

theorem digitChar_lt : ∀ a < 10, ∀ b < 10, (Nat.digitChar a < Nat.digitChar b ↔ a < b) := by
  decide

theorem digitChar_bounds : ∀ a < 10, '0' ≤ Nat.digitChar a ∧ Nat.digitChar a ≤ '9' := by
  decide

theorem mem_fixedDigits {width n : ℕ} {c : Char} (h : c ∈ fixedDigits width n) :
    '0' ≤ c ∧ c ≤ '9' := by
  induction width generalizing n with
  | zero => cases h
  | succ width ih =>
    rcases List.mem_append.mp h with h | h
    · exact ih h
    · rw [List.mem_singleton.mp h]
      exact digitChar_bounds _ (Nat.mod_lt _ (by decide))

theorem fixedDigits_inj {width m n : ℕ} (hm : m < 10^width) (hn : n < 10^width) :
    fixedDigits width m = fixedDigits width n ↔ m = n := by
  constructor
  · intro h
    induction width generalizing m n with
    | zero =>
      simp only [Nat.pow_zero,Nat.lt_one_iff] at hm hn
      rw [hm,hn]
    | succ width ih =>
      have hlen : (fixedDigits width (m/10)).length = (fixedDigits width (n/10)).length := by
        simp only [length_fixedDigits]
      obtain ⟨hinit,hlast⟩ := List.append_inj h hlen
      have hdiv := ih (by omega) (by omega) hinit
      have hlt := digitChar_lt (m%10) (Nat.mod_lt _ (by decide)) (n%10) (Nat.mod_lt _ (by decide))
      have hgt := digitChar_lt (n%10) (Nat.mod_lt _ (by decide)) (m%10) (Nat.mod_lt _ (by decide))
      rw [(List.cons.inj hlast).1] at hlt hgt
      have hirrefl := Char.lt_irrefl (Nat.digitChar (n%10))
      simp only [hirrefl,false_iff] at hlt hgt
      omega
  · exact congrArg _

theorem fixedDigits_lt {width m n : ℕ} (hm : m < 10^width) (hn : n < 10^width) :
    fixedDigits width m < fixedDigits width n ↔ m < n := by
  induction width generalizing m n with
  | zero =>
    simp only [Nat.pow_zero,Nat.lt_one_iff] at hm hn
    simp [hm,hn]
  | succ width ih =>
    have hm' : m/10 < 10^width := by omega
    have hn' : n/10 < 10^width := by omega
    have hlen : (fixedDigits width (m/10)).length = (fixedDigits width (n/10)).length := by
      simp only [length_fixedDigits]
    have hlast := digitChar_lt (m%10) (Nat.mod_lt _ (by decide)) (n%10) (Nat.mod_lt _ (by decide))
    simp only [fixedDigits,append_lt_append_iff hlen,ih hm' hn',fixedDigits_inj hm' hn',
      List.cons_lt_cons_iff,hlast,List.not_lt_nil,and_false,or_false]
    omega

/-- Fixed texts before whatever follows: the number decides first. -/
theorem fixedDigits_append_lt {width m n : ℕ} (hm : m < 10^width) (hn : n < 10^width)
    (s t : List Char) :
    fixedDigits width m++s < fixedDigits width n++t ↔ m < n ∨ (m = n ∧ s < t) := by
  have hlen : (fixedDigits width m).length = (fixedDigits width n).length := by
    simp only [length_fixedDigits]
  rw [append_lt_append_iff hlen,fixedDigits_lt hm hn,fixedDigits_inj hm hn]

def trimZeros (cs : List Char) : List Char := cs.rdropWhile (· == '0')

/-- The digits of a fraction after its dot, or nothing. -/
def fractionText (digits : List Char) : List Char :=
  match trimZeros digits with
  | [] => []
  | c::cs => '.'::c::cs

section Fraction

variable {a b : List Char}

theorem trimZeros_append (cs : List Char) :
    ∃ count, cs = trimZeros cs++List.replicate count '0' := by
  refine ⟨(cs.rtakeWhile (· == '0')).length,?_⟩
  have hzero : cs.rtakeWhile (· == '0') =
      List.replicate (cs.rtakeWhile (· == '0')).length '0' := by
    rw [List.eq_replicate_iff]
    exact ⟨rfl,fun c hc => by simpa using List.mem_rtakeWhile_imp hc⟩
  rw [trimZeros,← hzero]
  exact List.rdropWhile_append_rtakeWhile.symm

/-- Nothing made of digits comes before zeros of the same length. -/
theorem not_lt_zeros {cs : List Char} (h : ∀ c ∈ cs, '0' ≤ c) :
    ¬cs < List.replicate cs.length '0' := by
  induction cs with
  | nil => simp
  | cons c cs ih =>
    rw [List.length_cons,List.replicate_succ,List.cons_lt_cons_iff]
    rintro (hc | ⟨-,ht⟩)
    · exact absurd hc (Char.not_lt.mpr (h c (by simp)))
    · exact ih (fun d hd => h d (by simp [hd])) ht

/-- A smaller number does not go on with digits after the trimmed digits of a larger one. -/
theorem trimZeros_not_prefix (hlen : a.length = b.length) (ha : ∀ c ∈ a, '0' ≤ c)
    (h : a < b) : ¬trimZeros b <+: trimZeros a := by
  rintro ⟨rest,hrest⟩
  obtain ⟨i,hi⟩ := trimZeros_append a
  obtain ⟨j,hj⟩ := trimZeros_append b
  generalize trimZeros a = u at hrest hi
  generalize trimZeros b = v at hrest hj
  subst hrest hi hj
  rw [List.append_assoc] at h hlen
  have hj : (rest++List.replicate i '0').length = j := by simpa using hlen
  have hlt : rest++List.replicate i '0' < List.replicate j '0' := by
    rcases (append_lt_append_iff rfl).mp h with h | ⟨-,h⟩
    · exact absurd h (List.lt_irrefl _)
    · exact h
  rw [← hj] at hlt
  refine not_lt_zeros (fun c hc => ha c ?_) hlt
  rw [List.append_assoc]
  exact List.mem_append_right _ hc

theorem trimZeros_ne (hlen : a.length = b.length) (h : a < b) : trimZeros a ≠ trimZeros b := by
  intro he
  obtain ⟨i,hi⟩ := trimZeros_append a
  obtain ⟨j,hj⟩ := trimZeros_append b
  generalize trimZeros a = u at he hi
  generalize trimZeros b = v at he hj
  subst he hi hj
  have hij : i = j := by simpa using hlen
  subst hij
  exact List.lt_irrefl _ h

theorem fractionText_nil (h : trimZeros a = []) : fractionText a = [] := by
  simp [fractionText,h]

theorem fractionText_cons (h : trimZeros a ≠ []) : fractionText a = '.'::trimZeros a := by
  unfold fractionText
  cases ht : trimZeros a with
  | nil => exact absurd ht h
  | cons c cs => rfl

variable {stop : Char}

/-- Fractions that part at a digit are ordered as the numbers. -/
theorem fractionText_lt (hlen : a.length = b.length) (ha : ∀ c ∈ a, '0' ≤ c) (h : a < b)
    (hp : ¬trimZeros a <+: trimZeros b) : fractionText a++[stop] < fractionText b++[stop] := by
  have hq := trimZeros_not_prefix hlen ha h
  rw [fractionText_cons (fun he => hp (he ▸ List.nil_prefix)),
    fractionText_cons (fun he => hq (he ▸ List.nil_prefix)),List.cons_append,List.cons_append,
    List.cons_lt_cons_self,append_lt_append_of_part hp hq]
  obtain ⟨i,hi⟩ := trimZeros_append a
  obtain ⟨j,hj⟩ := trimZeros_append b
  rw [hi,hj,append_lt_append_of_part hp hq] at h
  exact h

/-- A fraction that goes on where the smaller one stops comes first. -/
theorem fractionText_gt (hlen : a.length = b.length) (hb : ∀ c ∈ b, c ≤ '9') (h : a < b)
    (hs : '9' < stop) (hp : trimZeros a <+: trimZeros b) :
    fractionText b++[stop] < fractionText a++[stop] := by
  have hne := trimZeros_ne hlen h
  obtain ⟨rest,hrest⟩ := hp
  cases rest with
  | nil => exact absurd (by simpa using hrest) hne
  | cons c rest =>
    have hc : c < stop := by
      obtain ⟨j,hj⟩ := trimZeros_append b
      have hm : c ∈ b := by
        rw [hj,← hrest]
        simp
      exact Nat.lt_of_le_of_lt (hb c hm) hs
    have hb' : trimZeros b ≠ [] := by
      rw [← hrest]
      simp
    rw [fractionText_cons hb']
    by_cases ha' : trimZeros a = []
    · rw [fractionText_nil ha',List.cons_append,List.nil_append,List.cons_lt_cons_iff]
      exact Or.inl (Char.lt_trans (by decide) hs)
    · rw [fractionText_cons ha',← hrest,List.cons_append,List.cons_append,List.cons_lt_cons_self,
        List.append_assoc]
      exact List.append_left_lt (by rw [List.cons_append,List.cons_lt_cons_iff]; exact Or.inl hc)

end Fraction

end YinShu.DecimalOrder
