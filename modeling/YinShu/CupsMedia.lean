import YinShu.CupsPaper
import Mathlib.Tactic.Linarith

/-!
# The paper sent to the printing system

A requested paper is replaced by one of the driver's that is as large, and
sent as a token: the driver's own custom token, or one made from the size.
The printing system reads the token with the rules that the agent itself uses
for the driver's list. Writing and reading agree to a hundredth of a millimetre.
-/

set_option autoImplicit false

namespace YinShu.CupsMedia
open YinShu.TextScan YinShu.TextPieces YinShu.DecimalText YinShu.PrintModel YinShu.PaperSizes
open YinShu.CupsPaper

def isCupsMediaToken (value : String) : Bool := "Custom.".toList.isPrefixOf value.toList

def customMediaOption (widthMm heightMm : ℚ) : String :=
  "Custom."++formatMm widthMm++"x"++formatMm heightMm++"mm"

def cupsMediaOption (paper : PaperInfo) : String :=
  if isCupsMediaToken paper.id then paper.id
  else customMediaOption paper.widthMm paper.heightMm

def findMatchingPaper (papers : List PaperInfo) (paper : PaperInfo) : Option PaperInfo :=
  papers.find? (fun candidate => |candidate.widthMm-paper.widthMm| < 1/100 &&
    |candidate.heightMm-paper.heightMm| < 1/100)

def resolvePaperForPrint (papers : List PaperInfo) (paper : PaperInfo) : PaperInfo :=
  (findMatchingPaper papers paper).getD paper

def commonLabelPapers : List PaperInfo :=
  [("label_40x30",40,30),("label_50x30",50,30),("label_60x40",60,40),("label_80x50",80,50),
    ("label_100x150",100,150),("iso_a6",105,148),("iso_a5",148,210),("iso_a4",210,297),
    ("iso_a3",297,420),("na_letter",2159/10,2794/10),("na_legal",2159/10,3556/10)].map
    (fun (id,widthMm,heightMm) => ⟨id,paperName widthMm heightMm,widthMm,heightMm⟩)

/-- The papers of a driver, given the text of its options. -/
def listedPapers (output : String) : List PaperInfo :=
  if (parseLpoptionsPapers output).isEmpty then commonLabelPapers
  else parseLpoptionsPapers output

section Rounding

variable {x : ℚ}

theorem lt_floor_add_one (x : ℚ) : x < x.floor+1 := by
  have h := Rat.floor_lt_iff.mp (Int.lt_succ x.floor)
  simpa using h

/-- Rounding to the nearest moves a number by at most a half. -/
theorem roundHalfEven_near (x : ℚ) : |(roundHalfEven x : ℚ)-x| ≤ 1/2 := by
  have hle := Rat.floor_le x
  have hlt := lt_floor_add_one x
  unfold roundHalfEven
  dsimp only
  split_ifs with h1 h2 h3 <;> rw [abs_le] <;> push_cast <;> constructor <;> linarith

theorem roundHalfEven_nonneg (hx : 0 ≤ x) : 0 ≤ roundHalfEven x := by
  have hf : 0 ≤ x.floor := Rat.le_floor_iff.mpr (by simpa using hx)
  unfold roundHalfEven
  dsimp only
  split_ifs <;> omega

theorem roundMm_nonneg (hx : 0 ≤ x) : Hundredths (roundMm x) := by
  have h100 : 0 ≤ x*100 := by positivity
  have hf : 0 ≤ (x*100+1/2).floor := Rat.le_floor_iff.mpr (by push_cast; positivity)
  refine ⟨(x*100+1/2).floor.toNat,?_⟩
  rw [roundMm,roundHalfAway,if_pos h100]
  congr 1
  exact_mod_cast (Int.toNat_of_nonneg hf).symm

theorem roundMm_hundredths (hx : Hundredths x) : roundMm x = x := by
  obtain ⟨n,rfl⟩ := hx
  have hn : (n/100*100 : ℚ) = n := by ring
  have hf : ((n : ℚ)+1/2).floor = n := by
    refine Int.le_antisymm ?_ (Rat.le_floor_iff.mpr ?_)
    · refine Int.le_of_lt_add_one (Rat.floor_lt_iff.mpr ?_)
      push_cast
      linarith
    · push_cast
      linarith
  rw [roundMm,hn,roundHalfAway,if_pos (by positivity),hf,Int.cast_natCast]

theorem hundredths_eq {y : ℚ} (hx : Hundredths x) (hy : Hundredths y)
    (h : |x-y| < 1/100) : x = y := by
  obtain ⟨m,rfl⟩ := hx
  obtain ⟨n,rfl⟩ := hy
  rw [abs_lt] at h
  have hmn : (m : ℚ) < n+1 := by linarith [h.2]
  have hnm : (n : ℚ) < m+1 := by linarith [h.1]
  have heq : m = n := by
    have h1 : m < n+1 := by exact_mod_cast hmn
    have h2 : n < m+1 := by exact_mod_cast hnm
    omega
  rw [heq]

end Rounding

section Formatting

variable {x : ℚ}

theorem fixed0_toList (hx : 0 ≤ x) :
    (fixed0 x).toList = Nat.toDigits 10 (roundHalfEven x).toNat := by
  have hneg : ¬x < 0 := not_lt.mpr hx
  simp [fixed0,hneg,abs_of_nonneg hx]

/-- The two digits after the point are those of the rounded number of hundredths. -/
theorem fixed2_toList (hx : 0 ≤ x) {n : ℕ} (hn : (roundHalfEven (x*100)).toNat = n) :
    (fixed2 x).toList = twoDigits (n/100) (n%100/10) (n%10) := by
  have hneg : ¬x < 0 := not_lt.mpr hx
  have htens : n%100/10 < 10 := by omega
  have hunits : n%10 < 10 := Nat.mod_lt _ (by decide)
  simp [fixed2,hneg,abs_of_nonneg hx,hn,twoDigits,Nat.toDigits_of_lt_base htens,
    Nat.toDigits_of_lt_base hunits]

/-- The text is a numeral of hundredths less than a hundredth away. -/
def WrittenNear (x : ℚ) : Prop :=
  ∃ n : Numeral, (formatMm x).toList = n.text ∧ Hundredths n.value ∧ |n.value-x| < 1/100

/-- A dimension that is whole up to the precision of the test is written without a point. -/
theorem formatMm_whole (hx : 0 ≤ x) (hsmall : |fract x| < 1/2^52) : WrittenNear x := by
  have hle := Rat.floor_le x
  have hfract : |fract x| = x-x.floor := by
    rw [fract,if_pos hx,abs_of_nonneg (by linarith)]
  have hnear : x-x.floor < 1/2^52 := hfract ▸ hsmall
  have hround : roundHalfEven x = x.floor := by
    unfold roundHalfEven
    rw [if_pos (lt_trans hnear (by norm_num))]
  have hnat : ((x.floor.toNat : ℕ) : ℚ) = x.floor := by
    exact_mod_cast Int.toNat_of_nonneg (Rat.le_floor_iff.mpr (by simpa using hx))
  refine ⟨Numeral.ofNat x.floor.toNat,?_,?_,?_⟩
  · rw [formatMm,if_pos hsmall,fixed0_toList hx,hround]
    rfl
  · refine ⟨x.floor.toNat*100,?_⟩
    rw [ofNat_value]
    push_cast
    ring
  · rw [ofNat_value,hnat,abs_sub_comm,abs_of_nonneg (by linarith)]
    exact lt_trans hnear (by norm_num)

/-- Any other dimension is written with its rounded hundredths. -/
theorem formatMm_fraction (hx : 0 ≤ x) (hsmall : ¬|fract x| < 1/2^52) : WrittenNear x := by
  obtain ⟨n,hn⟩ : ∃ n, (roundHalfEven (x*100)).toNat = n := ⟨_,rfl⟩
  have hnat : (roundHalfEven (x*100) : ℚ) = n := by
    have h := Int.toNat_of_nonneg (roundHalfEven_nonneg (by positivity : 0 ≤ x*100))
    rw [hn] at h
    exact_mod_cast h.symm
  have hsplit : ((n/100*10+n%100/10)*10+n%10 : ℕ) = n := by omega
  obtain ⟨numeral,htext,hvalue⟩ := trimmed_twoDigits (w := n/100) (d := n%100/10) (e := n%10)
    (by omega) (by omega)
  rw [hsplit] at hvalue
  refine ⟨numeral,?_,⟨n,hvalue⟩,?_⟩
  · rw [← htext,formatMm,if_neg hsmall,trimEndMatches,trimEndMatches,String.toList_ofList,
      String.toList_ofList,fixed2_toList hx hn]
    rfl
  · have hnear := roundHalfEven_near (x*100)
    rw [hnat,abs_le] at hnear
    rw [hvalue,abs_lt]
    constructor <;> linarith [hnear.1,hnear.2]

theorem formatMm_numeral (hx : 0 ≤ x) : WrittenNear x := by
  by_cases hsmall : |fract x| < 1/2^52
  · exact formatMm_whole hx hsmall
  · exact formatMm_fraction hx hsmall

end Formatting

section Tokens

theorem hundredths_of_den {x : ℚ} (hx : 0 ≤ x) (hd : (x*100).den = 1) : Hundredths x := by
  refine ⟨(x*100).num.toNat,?_⟩
  have hnum : ((x*100).num : ℚ) = x*100 := Rat.den_eq_one_iff _ |>.mp hd
  have hnonneg : 0 ≤ (x*100).num := Rat.num_nonneg.mpr (by positivity)
  have hnat : (((x*100).num.toNat : ℕ) : ℚ) = (x*100).num := by
    exact_mod_cast Int.toNat_of_nonneg hnonneg
  rw [hnat,hnum]
  ring

def IsHundredths (paper : PaperInfo) : Prop :=
  Hundredths paper.widthMm ∧ Hundredths paper.heightMm

theorem known_hundredths : ∀ known ∈ knownPapers,
    Hundredths known.widthMm ∧ Hundredths known.heightMm := by
  have hden : ∀ known ∈ knownPapers, (0 ≤ known.widthMm ∧ (known.widthMm*100).den = 1) ∧
      0 ≤ known.heightMm ∧ (known.heightMm*100).den = 1 := by
    decide +kernel
  intro known hk
  obtain ⟨⟨hw,hwd⟩,hh,hhd⟩ := hden known hk
  exact ⟨hundredths_of_den hw hwd,hundredths_of_den hh hhd⟩

theorem parseDimensionPair_hundredths {size : List Char} {dims : ℚ × ℚ}
    (h : parseDimensionPair size = some dims) : Hundredths dims.1 ∧ Hundredths dims.2 := by
  unfold parseDimensionPair at h
  simp only [Option.bind_eq_bind,Option.bind_eq_some_iff,Option.pure_def,
    Option.some.injEq] at h
  obtain ⟨parts,-,width,hw,height,hh,hd⟩ := h
  have hwidth : 0 ≤ width := parseDecimal_nonneg hw
  have hheight : 0 ≤ height := parseDecimal_nonneg hh
  split_ifs at hd
  · cases hd
    exact ⟨roundMm_nonneg (by positivity),roundMm_nonneg (by positivity)⟩
  · cases hd
    exact ⟨roundMm_nonneg hwidth,roundMm_nonneg hheight⟩

/-- A paper read from a token keeps the token, and its sides are hundredths. -/
theorem parsePaperChoice_some {choice : String} {paper : PaperInfo}
    (h : parsePaperChoice choice = some paper) : paper.id = choice ∧ IsHundredths paper := by
  unfold parsePaperChoice at h
  split at h
  · rename_i known hk
    cases h
    exact ⟨rfl,known_hundredths known (List.mem_of_find?_eq_some hk)⟩
  · obtain ⟨dims,hd,rfl⟩ := Option.map_eq_some_iff.mp h
    exact ⟨rfl,parseDimensionPair_hundredths hd⟩

theorem parsePaperLine_mem {line : List Char} {paper : PaperInfo}
    (h : paper ∈ parsePaperLine line) : parsePaperChoice paper.id = some paper := by
  unfold parsePaperLine at h
  split at h
  · cases h
  · obtain ⟨choice,-,hc⟩ := List.mem_filterMap.mp h
    rw [(parsePaperChoice_some hc).1]
    exact hc

theorem parseLpoptionsPapers_mem {output : String} {paper : PaperInfo}
    (h : paper ∈ parseLpoptionsPapers output) : parsePaperChoice paper.id = some paper := by
  obtain ⟨line,-,hl⟩ := List.mem_flatMap.mp h
  exact parsePaperLine_mem hl

theorem commonLabelPapers_mem : ∀ paper ∈ commonLabelPapers,
    isCupsMediaToken paper.id = false ∧ IsHundredths paper := by
  have hden : ∀ paper ∈ commonLabelPapers, isCupsMediaToken paper.id = false ∧
      (0 ≤ paper.widthMm ∧ (paper.widthMm*100).den = 1) ∧
      0 ≤ paper.heightMm ∧ (paper.heightMm*100).den = 1 := by
    decide +kernel
  intro paper hp
  obtain ⟨hid,⟨hw,hwd⟩,hh,hhd⟩ := hden paper hp
  exact ⟨hid,hundredths_of_den hw hwd,hundredths_of_den hh hhd⟩

/-- A listed paper has sides in hundredths, and its token, where it is a custom one, is read
as the paper itself. -/
theorem listedPapers_mem {output : String} {paper : PaperInfo} (h : paper ∈ listedPapers output) :
    IsHundredths paper ∧
      (isCupsMediaToken paper.id = true → parsePaperChoice paper.id = some paper) := by
  unfold listedPapers at h
  split_ifs at h
  · obtain ⟨hid,hh⟩ := commonLabelPapers_mem paper h
    exact ⟨hh,fun ht => by rw [hid] at ht; cases ht⟩
  · have hp := parseLpoptionsPapers_mem h
    exact ⟨(parsePaperChoice_some hp).2,fun _ => hp⟩

/-- The token that is made from a size is read as that size. -/
theorem customMediaOption_read {widthMm heightMm : ℚ} (hw : 0 ≤ widthMm) (hh : 0 ≤ heightMm) :
    ∃ found, parsePaperChoice (customMediaOption widthMm heightMm) = some found ∧
      IsHundredths found ∧ |found.widthMm-widthMm| < 1/100 ∧
      |found.heightMm-heightMm| < 1/100 := by
  obtain ⟨n,hn,hnh,hnw⟩ := formatMm_numeral hw
  obtain ⟨m,hm,hmh,hmw⟩ := formatMm_numeral hh
  have htoken : (customMediaOption widthMm heightMm).toList =
      "Custom".toList++ '.'::sizeText n m .mm := by
    simp [customMediaOption,hn,hm,sizeText,SizeUnit.text]
  have hknown : knownPaperSize "Custom".toList = none := by decide +kernel
  have hk : knownPaperSize (customMediaOption widthMm heightMm).toList = none := by
    rw [htoken,knownPaperSize_size _ (by decide),hknown]
  have hstrip : stripStart "Custom.".toList (customMediaOption widthMm heightMm).toList =
      some (sizeText n m .mm) := by
    rw [stripStart_some,htoken]
    rfl
  have hsize : sizePart (customMediaOption widthMm heightMm).toList = []++sizeText n m .mm := by
    rw [sizePart,hstrip]
    rfl
  obtain ⟨name,hp⟩ := parsePaperChoice_sized n m .mm hk hsize (Or.inl rfl)
  refine ⟨_,hp,?_⟩
  simp only [SizeUnit.toMm,IsHundredths,roundMm_hundredths hnh,roundMm_hundredths hmh]
  exact ⟨⟨hnh,hmh⟩,hnw,hmw⟩

end Tokens

section Requests

variable {output : String} {paper : PaperInfo}

theorem hundredths_nonneg {x : ℚ} (hx : Hundredths x) : 0 ≤ x := by
  obtain ⟨n,rfl⟩ := hx
  positivity

/-- The paper that the token of a listed paper denotes has the same sides. -/
theorem listed_option_read (h : paper ∈ listedPapers output) :
    ∃ found, parsePaperChoice (cupsMediaOption paper) = some found ∧ IsHundredths found ∧
      found.widthMm = paper.widthMm ∧ found.heightMm = paper.heightMm := by
  obtain ⟨⟨hw,hh⟩,htoken⟩ := listedPapers_mem h
  unfold cupsMediaOption
  split_ifs with ht
  · exact ⟨paper,htoken ht,⟨hw,hh⟩,rfl,rfl⟩
  · obtain ⟨found,hf,hfh,hfw,hfd⟩ := customMediaOption_read (hundredths_nonneg hw)
      (hundredths_nonneg hh)
    exact ⟨found,hf,hfh,hundredths_eq hfh.1 hw hfw,hundredths_eq hfh.2 hh hfd⟩

theorem resolved_option_read (hw : 0 < paper.widthMm) (hh : 0 < paper.heightMm)
    (hid : isCupsMediaToken paper.id = false) :
    ∃ found, parsePaperChoice (cupsMediaOption
      (resolvePaperForPrint (listedPapers output) paper)) = some found ∧ IsHundredths found ∧
      |found.widthMm-paper.widthMm| < 1/100 ∧ |found.heightMm-paper.heightMm| < 1/100 := by
  cases hc : findMatchingPaper (listedPapers output) paper with
  | none =>
    have hoption : cupsMediaOption (resolvePaperForPrint (listedPapers output) paper) =
        customMediaOption paper.widthMm paper.heightMm := by
      simp [resolvePaperForPrint,hc,cupsMediaOption,hid]
    rw [hoption]
    exact customMediaOption_read hw.le hh.le
  | some candidate =>
    have hmatch := List.find?_some hc
    simp only [Bool.and_eq_true,decide_eq_true_eq] at hmatch
    obtain ⟨found,hf,hfh,hfw,hfd⟩ := listed_option_read (List.mem_of_find?_eq_some hc)
    rw [← hfw,← hfd] at hmatch
    rw [resolvePaperForPrint,hc,Option.getD_some]
    exact ⟨found,hf,hfh,hmatch⟩

end Requests

/-- The token of a requested paper denotes the requested size, to the hundredth. -/
theorem media_token_denotes (output : String) (paper : PaperInfo) (hw : 0 < paper.widthMm)
    (hh : 0 < paper.heightMm) (hid : isCupsMediaToken paper.id = false) :
    ∃ found, parsePaperChoice (cupsMediaOption
      (resolvePaperForPrint (listedPapers output) paper)) = some found ∧
      |found.widthMm-paper.widthMm| < 1/100 ∧ |found.heightMm-paper.heightMm| < 1/100 ∧
      (Hundredths paper.widthMm → found.widthMm = paper.widthMm) ∧
      (Hundredths paper.heightMm → found.heightMm = paper.heightMm) := by
  obtain ⟨found,hf,hfh,hfw,hfd⟩ := @resolved_option_read output paper hw hh hid
  exact ⟨found,hf,hfw,hfd,fun h => hundredths_eq hfh.1 h hfw,fun h => hundredths_eq hfh.2 h hfd⟩

/-- A label that the driver offers under a token of its own. -/
def labelPaper : PaperInfo := ⟨"label_60x40","60 x 40 mm",60,40⟩

theorem label_token_denotes :
    ∃ found, parsePaperChoice (cupsMediaOption (resolvePaperForPrint
      (listedPapers "PageSize/Page Size: *A4 Custom.60x40mm") labelPaper)) = some found ∧
      |found.widthMm-60| < 1/100 ∧ |found.heightMm-40| < 1/100 ∧
      (Hundredths 60 → found.widthMm = 60) ∧ (Hundredths 40 → found.heightMm = 40) :=
  media_token_denotes _ labelPaper (by norm_num [labelPaper]) (by norm_num [labelPaper])
    (by decide +kernel)

end YinShu.CupsMedia
