import YinShu.DecimalOrder

/-!
# Timestamps of the task history

An instant is a calendar date with a time of day in nanoseconds; its position
on the time line counts the days before it. The text has fixed digits down to
the second and a fraction without trailing zeros. Two texts are ordered as
their instants unless the earlier fraction is the beginning of the later one.
-/

set_option autoImplicit false

namespace YinShu.UtcTimestamp
open YinShu.DecimalOrder

def isLeapYear (year : ℕ) : Bool := year%4 == 0 && (year%100 != 0 || year%400 == 0)

def daysInYear (year : ℕ) : ℕ := if isLeapYear year then 366 else 365

/-- Months are counted from one. -/
def daysInMonth (year : ℕ) : ℕ → ℕ
  | 2 => if isLeapYear year then 29 else 28
  | 4 | 6 | 9 | 11 => 30
  | 1 | 3 | 5 | 7 | 8 | 10 | 12 => 31
  | _ => 0

structure UtcInstant where
  year : ℕ
  month : ℕ
  day : ℕ
  hour : ℕ
  minute : ℕ
  second : ℕ
  nanosecond : ℕ
  year_lt : year < 10000
  month_mem : 1 ≤ month ∧ month ≤ 12
  day_mem : 1 ≤ day ∧ day ≤ daysInMonth year month
  hour_lt : hour < 24
  minute_lt : minute < 60
  second_lt : second < 60
  nanosecond_lt : nanosecond < 10^9

/-- The total size of the units before the given one. -/
def before (size : ℕ → ℕ) : ℕ → ℕ
  | 0 => 0
  | n+1 => before size n+size n

def UtcInstant.dayNumber (t : UtcInstant) : ℕ :=
  before daysInYear t.year+(before (daysInMonth t.year) t.month+(t.day-1))

def UtcInstant.secondOfDay (t : UtcInstant) : ℕ := (t.hour*60+t.minute)*60+t.second

def UtcInstant.wholeSeconds (t : UtcInstant) : ℕ := t.dayNumber*86400+t.secondOfDay

/-- Nanoseconds since the beginning of the year zero. -/
def UtcInstant.nanos (t : UtcInstant) : ℕ := t.wholeSeconds*10^9+t.nanosecond

def dateText (t : UtcInstant) : List Char :=
  fixedDigits 4 t.year++ '-'::(fixedDigits 2 t.month++ '-'::fixedDigits 2 t.day)

def timeText (t : UtcInstant) : List Char :=
  fixedDigits 2 t.hour++ ':'::(fixedDigits 2 t.minute++ ':'::fixedDigits 2 t.second)

def fractionDigits (t : UtcInstant) : List Char := fixedDigits 9 t.nanosecond

/-- The text of an instant in the format of the standard, in UTC. -/
def rfc3339 (t : UtcInstant) : String :=
  String.ofList (dateText t++ 'T'::(timeText t++(fractionText (fractionDigits t)++['Z'])))

/-- The later instant is in the same second, and its fraction goes on where that of the
earlier one stops. -/
def Truncates (a b : UtcInstant) : Prop :=
  a.nanos < b.nanos ∧ a.wholeSeconds = b.wholeSeconds ∧
    trimZeros (fractionDigits a) <+: trimZeros (fractionDigits b)

instance (a b : UtcInstant) : Decidable (Truncates a b) :=
  inferInstanceAs (Decidable (_ ∧ _ ∧ _))

section Calendar

variable {size : ℕ → ℕ} {i j x y : ℕ}

theorem before_le (size : ℕ → ℕ) (h : i < j) : before size i+size i ≤ before size j := by
  induction j with
  | zero => cases h
  | succ j ih =>
    rcases Nat.lt_succ_iff_lt_or_eq.mp h with hlt | rfl
    · exact (ih hlt).trans (Nat.le_add_right _ _)
    · exact Nat.le_refl _

/-- Positions are ordered by their unit first. -/
theorem before_lt_iff (hx : x < size i) (hy : y < size j) :
    before size i+x < before size j+y ↔ i < j ∨ (i = j ∧ x < y) := by
  rcases Nat.lt_trichotomy i j with h | rfl | h
  · have := before_le size h
    omega
  · omega
  · have := before_le size h
    omega

theorem before_daysInMonth (year : ℕ) : before (daysInMonth year) 13 = daysInYear year := by
  simp only [before,daysInMonth,daysInYear]
  split_ifs <;> rfl

variable (a b t : UtcInstant)

theorem day_lt : t.day-1 < daysInMonth t.year t.month := by
  have h := t.day_mem
  omega

theorem dayOfYear_lt :
    before (daysInMonth t.year) t.month+(t.day-1) < daysInYear t.year := by
  have hday := day_lt t
  have hmonth : t.month < 13 := Nat.lt_succ_of_le t.month_mem.2
  have hle := before_le (daysInMonth t.year) hmonth
  rw [before_daysInMonth] at hle
  omega

theorem dayNumber_lt_iff : a.dayNumber < b.dayNumber ↔
    a.year < b.year ∨ (a.year = b.year ∧
      (a.month < b.month ∨ (a.month = b.month ∧ a.day < b.day))) := by
  unfold UtcInstant.dayNumber
  rw [before_lt_iff (dayOfYear_lt a) (dayOfYear_lt b)]
  refine or_congr_right (and_congr_right (fun hy => ?_))
  have hb := day_lt b
  rw [← hy] at hb ⊢
  rw [before_lt_iff (day_lt a) hb]
  have ha1 := a.day_mem.1
  have hb1 := b.day_mem.1
  omega

theorem dayNumber_inj : a.dayNumber = b.dayNumber ↔
    a.year = b.year ∧ a.month = b.month ∧ a.day = b.day := by
  have hlt := dayNumber_lt_iff a b
  have hgt := dayNumber_lt_iff b a
  omega

theorem secondOfDay_lt : t.secondOfDay < 86400 := by
  have hh := t.hour_lt
  have hm := t.minute_lt
  have hs := t.second_lt
  unfold UtcInstant.secondOfDay
  omega

theorem secondOfDay_lt_iff : a.secondOfDay < b.secondOfDay ↔
    a.hour < b.hour ∨ (a.hour = b.hour ∧
      (a.minute < b.minute ∨ (a.minute = b.minute ∧ a.second < b.second))) := by
  have ham := a.minute_lt
  have has := a.second_lt
  have hbm := b.minute_lt
  have hbs := b.second_lt
  unfold UtcInstant.secondOfDay
  omega

theorem secondOfDay_inj : a.secondOfDay = b.secondOfDay ↔
    a.hour = b.hour ∧ a.minute = b.minute ∧ a.second = b.second := by
  have hlt := secondOfDay_lt_iff a b
  have hgt := secondOfDay_lt_iff b a
  omega

theorem wholeSeconds_lt_iff : a.wholeSeconds < b.wholeSeconds ↔
    a.dayNumber < b.dayNumber ∨ (a.dayNumber = b.dayNumber ∧ a.secondOfDay < b.secondOfDay) := by
  have ha := secondOfDay_lt a
  have hb := secondOfDay_lt b
  unfold UtcInstant.wholeSeconds
  omega

theorem wholeSeconds_inj : a.wholeSeconds = b.wholeSeconds ↔
    a.dayNumber = b.dayNumber ∧ a.secondOfDay = b.secondOfDay := by
  have hlt := wholeSeconds_lt_iff a b
  have hgt := wholeSeconds_lt_iff b a
  omega

theorem nanos_lt_iff : a.nanos < b.nanos ↔ a.wholeSeconds < b.wholeSeconds ∨
    (a.wholeSeconds = b.wholeSeconds ∧ a.nanosecond < b.nanosecond) := by
  have ha := a.nanosecond_lt
  have hb := b.nanosecond_lt
  unfold UtcInstant.nanos
  omega

theorem nanos_inj : a.nanos = b.nanos ↔
    a.wholeSeconds = b.wholeSeconds ∧ a.nanosecond = b.nanosecond := by
  have hlt := nanos_lt_iff a b
  have hgt := nanos_lt_iff b a
  omega

end Calendar

section Texts

variable (a b : UtcInstant) (s t : List Char)

theorem separated_lt (c : Char) : c::s < c::t ↔ s < t := List.cons_lt_cons_self

theorem dateText_append_lt : dateText a++s < dateText b++t ↔
    a.dayNumber < b.dayNumber ∨ (a.dayNumber = b.dayNumber ∧ s < t) := by
  have hay : a.year < 10^4 := a.year_lt
  have hby : b.year < 10^4 := b.year_lt
  have ham : a.month < 10^2 := Nat.lt_of_le_of_lt a.month_mem.2 (by decide)
  have hbm : b.month < 10^2 := Nat.lt_of_le_of_lt b.month_mem.2 (by decide)
  have hdays : ∀ u : UtcInstant, u.day < 10^2 := by
    intro u
    have h := u.day_mem.2
    unfold daysInMonth at h
    split at h <;> (try split_ifs at h) <;> omega
  simp only [dateText,List.append_assoc,List.cons_append]
  rw [fixedDigits_append_lt hay hby,separated_lt,fixedDigits_append_lt ham hbm,separated_lt,
    fixedDigits_append_lt (hdays a) (hdays b),dayNumber_lt_iff,dayNumber_inj]
  simp only [or_assoc,and_or_left,and_assoc]

theorem timeText_append_lt : timeText a++s < timeText b++t ↔
    a.secondOfDay < b.secondOfDay ∨ (a.secondOfDay = b.secondOfDay ∧ s < t) := by
  have hlt : ∀ {n : ℕ}, n < 60 → n < 10^2 := fun h => Nat.lt_trans h (by decide)
  have hah : a.hour < 10^2 := Nat.lt_trans a.hour_lt (by decide)
  have hbh : b.hour < 10^2 := Nat.lt_trans b.hour_lt (by decide)
  simp only [timeText,List.append_assoc,List.cons_append]
  rw [fixedDigits_append_lt hah hbh,separated_lt,
    fixedDigits_append_lt (hlt a.minute_lt) (hlt b.minute_lt),separated_lt,
    fixedDigits_append_lt (hlt a.second_lt) (hlt b.second_lt),secondOfDay_lt_iff,secondOfDay_inj]
  simp only [or_assoc,and_or_left,and_assoc]

/-- The seconds decide first, then the rest of the texts. -/
theorem rfc3339_lt_iff : rfc3339 a < rfc3339 b ↔ a.wholeSeconds < b.wholeSeconds ∨
    (a.wholeSeconds = b.wholeSeconds ∧
      fractionText (fractionDigits a)++['Z'] < fractionText (fractionDigits b)++['Z']) := by
  rw [String.lt_iff,rfc3339,rfc3339,String.toList_ofList,String.toList_ofList,dateText_append_lt,
    separated_lt,timeText_append_lt,wholeSeconds_lt_iff,wholeSeconds_inj]
  simp only [or_assoc,and_or_left,and_assoc]

end Texts

section Order

variable {a b : UtcInstant}

theorem rfc3339_congr (h : a.nanos = b.nanos) : rfc3339 a = rfc3339 b := by
  obtain ⟨hw,hn⟩ := (nanos_inj a b).mp h
  obtain ⟨hd,hs⟩ := (wholeSeconds_inj a b).mp hw
  obtain ⟨hy,hm,hday⟩ := (dayNumber_inj a b).mp hd
  obtain ⟨hh,hmin,hsec⟩ := (secondOfDay_inj a b).mp hs
  simp only [rfc3339,dateText,timeText,fractionDigits,hy,hm,hday,hh,hmin,hsec,hn]

theorem fractionDigits_bounds {c : Char} (h : c ∈ fractionDigits a) : '0' ≤ c ∧ c ≤ '9' :=
  mem_fixedDigits h

theorem fractionDigits_length : (fractionDigits a).length = (fractionDigits b).length := by
  simp only [fractionDigits,length_fixedDigits]

/-- Later instants have later texts, unless the earlier fraction begins the later one. -/
theorem rfc3339_lt (h : a.nanos < b.nanos) (ht : ¬Truncates a b) : rfc3339 a < rfc3339 b := by
  rw [rfc3339_lt_iff]
  rcases (nanos_lt_iff a b).mp h with hw | ⟨hw,hn⟩
  · exact Or.inl hw
  · refine Or.inr ⟨hw,fractionText_lt fractionDigits_length
      (fun c hc => (fractionDigits_bounds hc).1) ?_ (fun hp => ht ⟨h,hw,hp⟩)⟩
    exact (fixedDigits_lt a.nanosecond_lt b.nanosecond_lt).mpr hn

theorem rfc3339_gt (ht : Truncates a b) : rfc3339 b < rfc3339 a := by
  obtain ⟨h,hw,hp⟩ := ht
  rw [rfc3339_lt_iff]
  rcases (nanos_lt_iff a b).mp h with hlt | ⟨-,hn⟩
  · omega
  · refine Or.inr ⟨hw.symm,fractionText_gt fractionDigits_length
      (fun c hc => (fractionDigits_bounds hc).2) ?_ (by decide) hp⟩
    exact (fixedDigits_lt a.nanosecond_lt b.nanosecond_lt).mpr hn

/-- For instants in order, their texts are in order exactly when the first does not
truncate the second. -/
theorem rfc3339_le_iff (h : a.nanos ≤ b.nanos) : rfc3339 a ≤ rfc3339 b ↔ ¬Truncates a b := by
  constructor
  · exact fun hle ht => String.not_le.mpr (rfc3339_gt ht) hle
  · intro ht
    rcases Nat.lt_or_eq_of_le h with hlt | heq
    · exact String.not_lt.mp (String.lt_asymm (rfc3339_lt hlt ht))
    · exact rfc3339_congr heq ▸ String.le_refl _

theorem nanos_le_of_rfc3339_le (h : rfc3339 b ≤ rfc3339 a) (ht : ¬Truncates a b) :
    b.nanos ≤ a.nanos :=
  Nat.le_of_not_lt (fun hlt => String.not_le.mpr (rfc3339_lt hlt ht) h)

end Order

end YinShu.UtcTimestamp
