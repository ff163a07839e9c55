import YinShu.TestPageLegible

/-!
# Room on the test page

All sizes of the page grow with its shorter side between two bounds. From 26
millimetres on they leave room for every part: for eight characters of each style,
for a label beside its value, for the rule below the title, and for the time of
printing between the body and the lower margin.
-/

set_option autoImplicit false

namespace YinShu.TestPageRoom
open YinShu.LabelledRun YinShu.PdfText YinShu.Protocol YinShu.PrintModel YinShu.Settings
open YinShu.TestPage YinShu.TestPageLayout YinShu.TestPageMarks YinShu.TestPageLegible

section Sizes

theorem low_le_clamp (value low high : ℚ) : low ≤ clamp value low high := le_max_left _ _

theorem clamp_le_high {value low high : ℚ} (h : low ≤ high) : clamp value low high ≤ high :=
  max_le h (min_le_right _ _)

theorem clamp_le {value low high bound : ℚ} (hl : low ≤ bound) (hv : value ≤ bound) :
    clamp value low high ≤ bound := max_le hl ((min_le_left _ _).trans hv)

theorem clamp_mono {value low high value' low' high' : ℚ} (hv : value ≤ value') (hl : low ≤ low')
    (hh : high ≤ high') : clamp value low high ≤ clamp value' low' high' :=
  max_le_max hl (min_le_min hv hh)

/-- The sizes of a page whose shorter side is `side`, bounded by that side. -/
structure Sized (side : ℚ) (layout : PageType) : Prop where
  marginLow : 12/10 ≤ layout.margin
  marginHigh : layout.margin ≤ side*(85/1000)
  titleLow : 8 ≤ layout.titlePt
  titleHigh : layout.titlePt ≤ side*(31/100)
  kickerLow : 55/10 ≤ layout.kickerPt
  kickerHigh : layout.kickerPt ≤ side*(22/100)
  kickerTitle : layout.kickerPt ≤ layout.titlePt
  subtitleLow : 6 ≤ layout.subtitlePt
  subtitleHigh : layout.subtitlePt ≤ side*(25/100) ∧ layout.subtitlePt ≤ 11
  subtitleTitle : layout.subtitlePt ≤ layout.titlePt
  headingLow : 55/10 ≤ layout.headingPt
  headingHigh : layout.headingPt ≤ side*(22/100) ∧ layout.headingPt ≤ 8
  headingTitle : layout.headingPt ≤ layout.titlePt
  bodyLow : 65/10 ≤ layout.bodyPt
  bodyHigh : layout.bodyPt ≤ side*(25/100) ∧ layout.bodyPt ≤ 11
  bodyTitle : layout.bodyPt ≤ layout.titlePt
  footerLow : 55/10 ≤ layout.footerPt
  footerHigh : layout.footerPt ≤ side*(2125/10000) ∧ layout.footerPt ≤ 8
  footerTitle : layout.footerPt ≤ layout.titlePt
  labelLow : 12 ≤ layout.labelColMm
  labelHigh : layout.labelColMm ≤ side*(6/13)
  labelBody : charsMm 8 layout.bodyPt ≤ layout.labelColMm-15/10

theorem label_beside_value (side : ℚ) :
    charsMm 8 (clamp (side*(52/1000)) (65/10) 11) ≤ clamp (side*(114/1000)) 12 24-15/10 := by
  have hlow := low_le_clamp (side*(114/1000)) 12 24
  by_cases hsmall : side ≤ 125
  · have hbody : clamp (side*(52/1000)) (65/10) 11 ≤ 65/10 := clamp_le (le_refl _) (by linarith)
    unfold charsMm
    push_cast
    linarith
  · have hbody : clamp (side*(52/1000)) (65/10) 11 ≤ side*(52/1000) :=
      clamp_le (by linarith) (le_refl _)
    have hbody' : clamp (side*(52/1000)) (65/10) 11 ≤ 11 := clamp_le_high (by norm_num)
    have hlabel : min (side*(114/1000)) 24 ≤ clamp (side*(114/1000)) 12 24 := le_max_right _ _
    unfold charsMm
    push_cast
    rcases min_choice (side*(114/1000)) 24 with hmin | hmin
    · rw [hmin] at hlabel
      linarith
    · rw [hmin] at hlabel
      linarith

theorem pageType_sized {paper : EffectivePaper} (h : 26 ≤ min paper.widthMm paper.heightMm) :
    Sized (min paper.widthMm paper.heightMm) (pageType paper) where
  marginLow := low_le_clamp _ _ _
  marginHigh := clamp_le (by linarith) (le_refl _)
  titleLow := low_le_clamp _ _ _
  titleHigh := clamp_le (by linarith) (by linarith)
  kickerLow := low_le_clamp _ _ _
  kickerHigh := clamp_le (by linarith) (by linarith)
  kickerTitle := clamp_mono (by linarith) (by norm_num) (by norm_num)
  subtitleLow := low_le_clamp _ _ _
  subtitleHigh := ⟨clamp_le (by linarith) (by linarith),clamp_le_high (by norm_num)⟩
  subtitleTitle := clamp_mono (by linarith) (by norm_num) (by norm_num)
  headingLow := low_le_clamp _ _ _
  headingHigh := ⟨clamp_le (by linarith) (by linarith),clamp_le_high (by norm_num)⟩
  headingTitle := clamp_mono (by linarith) (by norm_num) (by norm_num)
  bodyLow := low_le_clamp _ _ _
  bodyHigh := ⟨clamp_le (by linarith) (by linarith),clamp_le_high (by norm_num)⟩
  bodyTitle := clamp_mono (by linarith) (by norm_num) (by norm_num)
  footerLow := low_le_clamp _ _ _
  footerHigh := ⟨clamp_le (by linarith) (by linarith),clamp_le_high (by norm_num)⟩
  footerTitle := clamp_mono (by linarith) (by norm_num) (by norm_num)
  labelLow := low_le_clamp _ _ _
  labelHigh := clamp_le (by linarith) (by linarith)
  labelBody := label_beside_value _

end Sizes

section Room

variable {paper : EffectivePaper} {content : TestPageContent}

/-- The body ends eight millimetres above the margin, or fourteen where there is a scale. -/
theorem floor_cases (paper : EffectivePaper) (hfooter : content.footer.isEmpty = false) :
    ((frameOf paper content).layout.showScale = true ∧
      140 ≤ min paper.widthMm paper.heightMm ∧
      (frameOf paper content).floor = (frameOf paper content).layout.margin+14) ∨
    ((frameOf paper content).layout.showScale = false ∧
      (frameOf paper content).floor = (frameOf paper content).layout.margin+8) := by
  by_cases hscale : 140 ≤ min paper.widthMm paper.heightMm
  · left
    have hshow : (pageType paper).showScale = true := decide_eq_true hscale
    exact ⟨hshow,hscale,by simp [frameOf,hshow]⟩
  · right
    have hshow : (pageType paper).showScale = false := decide_eq_false hscale
    exact ⟨hshow,by simp [frameOf,hshow,hfooter]⟩

theorem maxWidth_eq (h : 26 ≤ min paper.widthMm paper.heightMm) (content : TestPageContent) :
    (frameOf paper content).maxWidth = paper.widthMm-(pageType paper).margin*2 := by
  have hwide := min_le_left paper.widthMm paper.heightMm
  have hmargin := (pageType_sized h).marginHigh
  exact max_eq_left (by linarith)

/-- A style fits between the margins, where eight of its characters take half of the side. -/
theorem fits_between (h : 26 ≤ min paper.widthMm paper.heightMm) {sizePt : ℚ} (hpos : 0 < sizePt)
    (hsmall : sizePt ≤ (pageType paper).titlePt) :
    Fits (frameOf paper content) sizePt (pageType paper).margin
      (frameOf paper content).maxWidth where
  pos := hpos
  small := hsmall
  left := le_refl _
  right := by
    rw [maxWidth_eq h]
    change _ ≤ paper.widthMm-(pageType paper).margin
    linarith
  eight := by
    have hs := pageType_sized h
    have hmargin := hs.marginHigh
    have htitle := hs.titleHigh
    have hwide := min_le_left paper.widthMm paper.heightMm
    rw [maxWidth_eq h,charsMm]
    push_cast
    linarith

theorem value_room (h : 26 ≤ min paper.widthMm paper.heightMm) (content : TestPageContent) :
    8 ≤ (frameOf paper content).maxWidth-(pageType paper).labelColMm ∧
      charsMm 8 (pageType paper).bodyPt ≤
        (frameOf paper content).maxWidth-(pageType paper).labelColMm := by
  have hs := pageType_sized h
  have hmargin := hs.marginHigh
  have hlabel := hs.labelHigh
  have hbody := hs.bodyHigh.1
  have hwide := min_le_left paper.widthMm paper.heightMm
  rw [maxWidth_eq h,charsMm]
  constructor
  · linarith
  · push_cast
    linarith

theorem frameOf_roomy (h : 26 ≤ min paper.widthMm paper.heightMm)
    (hfooter : content.footer.isEmpty = false) : Roomy (frameOf paper content) := by
  have hs := pageType_sized h
  have hmargin := hs.marginHigh
  have hwide := min_le_left paper.widthMm paper.heightMm
  have hhigh := min_le_right paper.widthMm paper.heightMm
  have hwidth := maxWidth_eq h content
  obtain ⟨hvalue,hvalue8⟩ := value_room h content
  have hmax := max_eq_left hvalue
  have hfloor : (pageType paper).margin+8 ≤ (frameOf paper content).floor ∧
      (frameOf paper content).floor ≤
        (pageType paper).margin+8+min paper.widthMm paper.heightMm*(6/100) := by
    rcases floor_cases paper hfooter with ⟨-,hside,hf⟩ | ⟨-,hf⟩
    · rw [hf]
      change (pageType paper).margin+8 ≤ (pageType paper).margin+14 ∧
        (pageType paper).margin+14 ≤ _
      constructor <;> linarith
    · rw [hf]
      change (pageType paper).margin+8 ≤ (pageType paper).margin+8 ∧
        (pageType paper).margin+8 ≤ _
      constructor <;> linarith
  have htitle := hs.titleHigh
  have hkicker := hs.kickerHigh
  refine {
    margin := lt_of_lt_of_le (by norm_num) hs.marginLow
    floor := by change (pageType paper).margin ≤ _; linarith [hfloor.1]
    side := by
      rw [hwidth]
      change (pageType paper).margin+_ = paper.widthMm-(pageType paper).margin
      ring
    wide := by change (pageType paper).margin*2 ≤ paper.widthMm; linarith
    high := by change (pageType paper).margin*2 ≤ paper.heightMm; linarith
    title := fits_between h (lt_of_lt_of_le (by norm_num) hs.titleLow) (le_refl _)
    kicker := fits_between h (lt_of_lt_of_le (by norm_num) hs.kickerLow) hs.kickerTitle
    kickerNine := ?_
    subtitle := fits_between h (lt_of_lt_of_le (by norm_num) hs.subtitleLow) hs.subtitleTitle
    heading := fits_between h (lt_of_lt_of_le (by norm_num) hs.headingLow) hs.headingTitle
    body := fits_between h (lt_of_lt_of_le (by norm_num) hs.bodyLow) hs.bodyTitle
    label := ⟨lt_of_lt_of_le (by norm_num) hs.bodyLow,hs.bodyTitle,le_refl _,?_,hs.labelBody⟩
    value := ⟨lt_of_lt_of_le (by norm_num) hs.bodyLow,hs.bodyTitle,?_,?_,hmax.symm ▸ hvalue8⟩
    headingDrop := ?_
    ruleDrop := ⟨?_,?_⟩
    start := ?_
    rule := ?_ }
  · rw [hwidth,charsMm]
    change 9*(pageType paper).kickerPt*_*_/_ ≤ _
    linarith
  · change (pageType paper).margin+((pageType paper).labelColMm-15/10) ≤
      paper.widthMm-(pageType paper).margin
    rw [hwidth] at hvalue
    linarith
  · have := hs.labelLow
    change (pageType paper).margin ≤ (pageType paper).margin+(pageType paper).labelColMm
    linarith
  · change (pageType paper).margin+(pageType paper).labelColMm+
      max ((frameOf paper content).maxWidth-(pageType paper).labelColMm) 8 ≤
        paper.widthMm-(pageType paper).margin
    rw [hmax,hwidth]
    linarith
  · have := hs.headingHigh.2
    change (pageType paper).headingPt*(254/10)/72*(88/100) ≤ 42/10
    linarith
  · have := hs.subtitleHigh.2
    change (pageType paper).subtitlePt*(254/10)/72*(88/100) ≤ 52/10
    linarith
  · have := hs.bodyHigh.2
    change (pageType paper).bodyPt*(254/10)/72*(88/100) ≤ 52/10
    linarith
  · change _ ≤ paper.heightMm-(pageType paper).margin-
      (pageType paper).titlePt*(254/10)/72*(88/100)
    linarith [hfloor.2]
  · change (pageType paper).kickerPt*(254/10)/72*(155/100)+34/10 ≤ paper.heightMm-
      (pageType paper).margin-(pageType paper).titlePt*(254/10)/72*(88/100)
    linarith

end Room

end YinShu.TestPageRoom
