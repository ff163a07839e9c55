import YinShu.TestPageRoom

/-!
# The whole test page

From the frame to the footer, every part of the page is drawn where the parts before
it have left room. The result is one statement about the page that the agent makes
of any configuration, printer and computer.
-/

set_option autoImplicit false

namespace YinShu.TestPageComplete
open YinShu.LabelledRun YinShu.PdfText YinShu.Protocol YinShu.PrintModel YinShu.Settings
open YinShu.TestPage YinShu.TestPageLayout YinShu.TestPageMarks YinShu.TestPageLegible
open YinShu.TestPageRoom

/-- What the layout relies on: a short title, short labels and a short footer. -/
structure Brief (content : TestPageContent) : Prop where
  title : content.title.length ≠ 0 ∧ content.title.length ≤ 8
  kicker : content.kicker.length ≤ 9
  labels : ∀ group ∈ content.sections, ∀ row ∈ group.rows, row.label.length ≤ 8
  footer : content.footer.length ≠ 0 ∧ content.footer.length ≤ 20

section Page

variable {f : Frame} {p : Pen} {marks : List Mark}

theorem isEmpty_of_length {text : String} (h : text.length ≠ 0) : text.isEmpty = false := by
  rw [← Bool.not_eq_true,String.isEmpty_iff]
  rintro rfl
  exact h rfl

theorem start_below (f : Frame) : Below f (start f).y := by
  change f.paper.heightMm-f.layout.margin-ptMm f.layout.titlePt*(88/100)+
    ptMm f.layout.titlePt*(88/100) ≤ f.paper.heightMm-f.layout.margin
  linarith

theorem below_of_floor (hf : Roomy f) {y : ℚ} (h : y ≤ f.floor) : Below f y := by
  have hstart := hf.start
  have hbelow := start_below f
  unfold Below at hbelow ⊢
  linarith

theorem start_body (hf : Roomy f) : Body f (ascentMm f.layout.titlePt) (start f) := by
  let near := f.layout.margin*(4/10)
  let corners : List Point := [(near,near),(f.paper.widthMm-near,near),
    (f.paper.widthMm-near,f.paper.heightMm-near),(near,f.paper.heightMm-near)]
  have hmargin := hf.margin
  have hwide := hf.wide
  have hhigh := hf.high
  refine ⟨[.stroke corners],⟨0,rfl⟩,⟨fun t ht => ?_,.nil,fun mark hmark => ?_⟩,fun t ht => ?_,
    start_below f⟩
  · simp [texts,lineOf] at ht
  · rw [List.mem_singleton.mp hmark]
    intro point hpoint
    simp only [corners,near,List.mem_cons,List.not_mem_nil,or_false] at hpoint
    rcases hpoint with rfl | rfl | rfl | rfl <;>
      refine ⟨?_,?_,?_,?_⟩ <;> dsimp only <;> linarith
  · simp [texts,lineOf] at ht

/-- A text of one line leaves the pen where it is. -/
theorem single_keeps_pen {style : TextStyle} {x floor width : ℚ} {text : String}
    (hpos : text.length ≠ 0) (h : text.length ≤ maxCharsForWidth width style.sizePt) :
    (drawWrapped style x floor width text p).y = p.y := by
  by_cases hfloor : floor ≤ p.y
  · rw [drawWrapped_single style hpos h hfloor]
    rfl
  · rw [drawWrapped,wrapped_single hpos h]
    simp [drawLines,not_le.mp hfloor]

theorem title_body (hf : Roomy f) {title : String} (h : title.length ≠ 0 ∧ title.length ≤ 8) :
    Body f 0 (drawTitle f title (start f)) ∧ (drawTitle f title (start f)).y = (start f).y := by
  have hpos := hf.title.pos
  have hunfold : drawTitle f title (start f) = drawWrapped ⟨.helveticaBold,f.layout.titlePt,0⟩
      f.layout.margin f.floor f.maxWidth title (start f) := by
    simp [drawTitle,isEmpty_of_length h.1]
  rw [hunfold]
  have hone := le_maxChars hpos ((charsMm_mono hpos.le h.2).trans hf.title.eight)
  exact ⟨(start_body hf).wrapped ⟨.helveticaBold,f.layout.titlePt,0⟩ hf hf.title (le_refl _) title,
    single_keeps_pen h.1 hone⟩

theorem kicker_body (hf : Roomy f) {kicker : String} (hk : kicker.length ≤ 9)
    (h : Body f 0 p) (hy : p.y = (start f).y) :
    Body f 0 (drawKicker f kicker p) ∧ 34/10 ≤ (drawKicker f kicker p).y := by
  have hpos := hf.kicker.pos
  have hrule := hf.rule
  have hdrop : 0 ≤ ptMm f.layout.kickerPt*(155/100) := by
    unfold ptMm
    linarith
  unfold drawKicker
  split
  · case isTrue hshow =>
    have hne : kicker.length ≠ 0 := by
      intro hzero
      simp [String.length_eq_zero_iff.mp hzero] at hshow
    have hfits := le_maxChars hpos ((charsMm_mono hpos.le hk).trans hf.kickerNine)
    have hasc : ascentMm f.layout.kickerPt ≤ 0+ptMm f.layout.kickerPt*(155/100) := by
      unfold ascentMm ptMm
      linarith
    have hdown := h.down _ hdrop
    refine ⟨hdown.wrapped ⟨.helvetica,f.layout.kickerPt,4/10⟩ hf hf.kicker hasc kicker,?_⟩
    rw [single_keeps_pen hne hfits]
    change 34/10 ≤ p.y-ptMm f.layout.kickerPt*(155/100)
    linarith
  · exact ⟨h,by linarith⟩

theorem drawBody_body (hf : Roomy f) {content : TestPageContent} (hc : Brief content) :
    Body f (ascentMm f.layout.bodyPt) (drawBody f content (start f)) := by
  obtain ⟨htitle,hy⟩ := title_body hf hc.title
  obtain ⟨hkicker,hlow⟩ := kicker_body hf hc.kicker htitle hy
  have hrule := hkicker.rule hf (isEmpty_of_length hc.title.1) hlow
  exact (hrule.subtitle hf content.subtitle).sections hf content.sections hc.labels

/-- The scale and its caption are drawn between the body and the margin. -/
theorem drawScale_good (hf : Roomy f) (hshow : f.layout.showScale = true)
    (hfloor : f.floor = f.layout.margin+14) (hsmall : 7 ≤ f.layout.titlePt)
    (hr : Ready p marks) (hg : Good f f.floor marks) :
    ∃ after, Ready (drawScale f p) after ∧ Good f f.layout.margin after ∧
      ∀ t ∈ texts after, t ∈ texts marks ∨
        t.y = barY f+54/10 ∧ t.x+lineWidth t ≤ f.layout.margin+28 := by
  have hmargin := hf.margin
  have hside := hf.side
  have hbelow := start_below f
  have hstart := hf.start
  have hasc := ascentMm_nonneg hf.title.pos.le
  have hpos := hf.title.pos
  have height := hf.title.eight
  have hcaption : "20 mm".length = 5 := rfl
  have hwidth : charsMm 5 7 ≤ f.maxWidth := by
    unfold charsMm at height ⊢
    push_cast at height ⊢
    linarith
  have hchars : "20 mm".length ≤ maxCharsForWidth f.maxWidth 7 := by
    rw [hcaption]
    exact le_maxChars (by norm_num) hwidth
  have hnonzero : "20 mm".length ≠ 0 := by
    rw [hcaption]
    norm_num
  have hmin := min_le_right 20 f.maxWidth
  have hmin0 : 0 ≤ min 20 f.maxWidth := by
    refine le_min (by norm_num) ((charsMm_nonneg 5 ?_).trans hwidth)
    norm_num
  unfold Below at hbelow
  let bar : List Point := [(f.layout.margin,barY f),(f.layout.margin+min 20 f.maxWidth,barY f),
    (f.layout.margin+min 20 f.maxWidth,barY f+13/10),(f.layout.margin,barY f+13/10)]
  let line : TextLine := ⟨.helvetica,7,35/100,f.layout.margin,barY f+54/10,pdfSafe "20 mm"⟩
  let q : Pen := { p.push [.setFillColor 0,.drawPolygon bar] with y := barY f+54/10 }
  have hready : Ready q (marks++[.area bar]) := by
    obtain ⟨fill,hrun⟩ := hr
    refine ⟨0,?_⟩
    change run apply (p.ops++[.setFillColor 0,.drawPolygon bar]) {} = _
    rw [run_append,hrun]
    rfl
  have hbar : Good f f.floor (marks++[.area bar]) := by
    refine hg.shape rfl (fun point hpoint => ?_)
    simp only [bar,List.mem_cons,List.not_mem_nil,or_false] at hpoint
    rcases hpoint with rfl | rfl | rfl | rfl <;> refine ⟨?_,?_,?_,?_⟩ <;> dsimp only [barY] <;>
      linarith
  have hunfold : drawScale f p = q.push (lineOps ⟨.helvetica,7,35/100⟩ f.layout.margin q.y
      (pdfSafe "20 mm")) := by
    rw [drawScale,if_pos hshow]
    refine drawWrapped_single ⟨.helvetica,7,35/100⟩ (p := q) hnonzero hchars ?_
    change f.layout.margin ≤ f.layout.margin+34/10+54/10
    linarith
  have hfree : ∀ t ∈ texts (marks++[.area bar]), Separate t line := by
    intro t ht
    have hhigh := (hbar.legible t ht).2
    refine .inl ?_
    change f.layout.margin+34/10+54/10+7*(254/10)/72*(88/100) ≤ t.y
    linarith
  have hright : line.x+charsMm "20 mm".length line.size ≤ f.paper.widthMm-f.layout.margin := by
    rw [hcaption]
    change f.layout.margin+charsMm 5 7 ≤ _
    linarith
  have hy : f.layout.margin ≤ line.y := by
    change f.layout.margin ≤ f.layout.margin+34/10+54/10
    linarith
  have htop : Below f line.y := by
    apply below_of_floor hf
    change f.layout.margin+34/10+54/10 ≤ f.floor
    linarith
  refine ⟨_,by rw [hunfold]; exact hready.line ⟨.helvetica,7,35/100⟩ f.layout.margin _,
    single_good line hsmall (le_refl _) rfl hnonzero hright hy hy htop
      (hbar.mono hf.floor) hfree,fun t ht => ?_⟩
  rw [texts_append,texts_append] at ht
  rcases List.mem_append.mp ht with ht | ht
  · left
    simpa [texts,lineOf] using ht
  · right
    rw [List.mem_singleton.mp ht]
    refine ⟨rfl,?_⟩
    change f.layout.margin+charsMm (pdfSafe "20 mm").length 7 ≤ _
    rw [pdfSafe_length,hcaption,charsMm]
    norm_num

/-- The footer is one line, where its place is free. -/
theorem drawFooter_good (hf : Roomy f) {footer : String} (hlen : footer.length ≠ 0)
    (hsmall : f.layout.footerPt ≤ f.layout.titlePt) (hpos : 0 < f.layout.footerPt)
    (hfits : charsMm footer.length f.layout.footerPt ≤ f.maxWidth)
    (hleft : f.layout.margin ≤ footerX f footer)
    (hright : footerX f footer+charsMm footer.length f.layout.footerPt ≤
      f.paper.widthMm-f.layout.margin)
    (hlow : f.layout.margin ≤ footerY f) (hhigh : footerY f ≤ f.floor) (hr : Ready p marks)
    (hg : Good f f.layout.margin marks)
    (hfree : ∀ t ∈ texts marks, footerY f+ascentMm f.layout.footerPt ≤ t.y ∨
      t.y = footerY f ∧ t.x+lineWidth t ≤ footerX f footer) :
    ∃ after, Ready (drawFooter f footer p) after ∧ Good f f.layout.margin after ∧
      ∃ t ∈ texts after, t.text = pdfSafe footer := by
  let line : TextLine :=
    ⟨.helvetica,f.layout.footerPt,4/10,footerX f footer,footerY f,pdfSafe footer⟩
  have hunfold : drawFooter f footer p = ({ p with y := footerY f } : Pen).push
      (lineOps ⟨.helvetica,f.layout.footerPt,4/10⟩ (footerX f footer) (footerY f)
        (pdfSafe footer)) := by
    rw [drawFooter,if_neg (by simp [isEmpty_of_length hlen])]
    exact drawWrapped_single ⟨.helvetica,f.layout.footerPt,4/10⟩ hlen (le_maxChars hpos hfits) hlow
  have hready : Ready { p with y := footerY f } marks := hr
  refine ⟨marks++[.text line],?_,?_,line,?_,rfl⟩
  · rw [hunfold]
    exact hready.line ⟨.helvetica,f.layout.footerPt,4/10⟩ (footerX f footer) (pdfSafe footer)
  · exact single_good line hsmall hleft rfl hlen hright hlow hlow
      (below_of_floor hf hhigh) hg hfree
  · rw [texts_append]
    exact List.mem_append_right _ List.mem_cons_self

/-- What the end of the page relies on. -/
structure Footing (f : Frame) : Prop where
  pos : 0 < f.layout.footerPt
  small : f.layout.footerPt ≤ f.layout.titlePt
  ascent : ascentMm f.layout.footerPt ≤ 3
  seven : 7 ≤ f.layout.titlePt
  twenty : charsMm 20 f.layout.footerPt ≤ f.maxWidth
  ends : (f.layout.showScale = true ∧ f.floor = f.layout.margin+14 ∧
      28+charsMm 20 f.layout.footerPt ≤ f.maxWidth) ∨
    (f.layout.showScale = false ∧ f.floor = f.layout.margin+8)

theorem footer_beside_caption (hf : Roomy f) (hfoot : Footing f) (hshow : f.layout.showScale = true)
    (hfloor : f.floor = f.layout.margin+14) (hwide : 28+charsMm 20 f.layout.footerPt ≤ f.maxWidth)
    {footer : String} (hlen : footer.length ≠ 0 ∧ footer.length ≤ 20) (hr : Ready p marks)
    (hg : Good f f.floor marks) :
    ∃ after, Ready (drawFooter f footer (drawScale f p)) after ∧ Good f f.layout.margin after ∧
      ∃ t ∈ texts after, t.text = pdfSafe footer := by
  obtain ⟨scaled,hready,hgood,htexts⟩ := drawScale_good hf hshow hfloor hfoot.seven hr hg
  have hchars := charsMm_mono hfoot.pos.le hlen.2
  have hside := hf.side
  have hasc := hfoot.ascent
  have hx : footerX f footer = max (f.paper.widthMm-f.layout.margin-
      charsMm footer.length f.layout.footerPt) (f.layout.margin+28) := if_pos hshow
  have hy : footerY f = f.layout.margin+34/10+54/10 := if_pos hshow
  have hx28 : f.layout.margin+28 ≤ footerX f footer := by
    rw [hx]
    exact le_max_right _ _
  have hright : footerX f footer+charsMm footer.length f.layout.footerPt ≤
      f.paper.widthMm-f.layout.margin := by
    rw [hx]
    rcases max_choice (f.paper.widthMm-f.layout.margin-charsMm footer.length f.layout.footerPt)
      (f.layout.margin+28) with hm | hm
    · rw [hm]
      linarith
    · rw [hm]
      linarith
  have hfree : ∀ t ∈ texts scaled, footerY f+ascentMm f.layout.footerPt ≤ t.y ∨
      t.y = footerY f ∧ t.x+lineWidth t ≤ footerX f footer := by
    intro t ht
    rcases htexts t ht with hbody | ⟨hsame,hcaption⟩
    · have hhigh := (hg.legible t hbody).2
      refine .inl ?_
      rw [hfloor] at hhigh
      rw [hy]
      linarith
    · exact .inr ⟨hsame.trans hy.symm,hcaption.trans hx28⟩
  exact drawFooter_good hf hlen.1 hfoot.small hfoot.pos (hchars.trans hfoot.twenty) (by linarith)
    hright (by rw [hy]; linarith) (by rw [hy,hfloor]; linarith) hready hgood hfree

theorem footer_below_body (hf : Roomy f) (hfoot : Footing f)
    (hshow : f.layout.showScale = false) (hfloor : f.floor = f.layout.margin+8)
    {footer : String} (hlen : footer.length ≠ 0 ∧ footer.length ≤ 20) (hr : Ready p marks)
    (hg : Good f f.floor marks) :
    ∃ after, Ready (drawFooter f footer (drawScale f p)) after ∧ Good f f.layout.margin after ∧
      ∃ t ∈ texts after, t.text = pdfSafe footer := by
  have hhide : ¬ f.layout.showScale = true := by simp [hshow]
  have hchars := charsMm_mono hfoot.pos.le hlen.2
  have hside := hf.side
  have hasc := hfoot.ascent
  have htwenty := hfoot.twenty
  have hx : footerX f footer = f.layout.margin := if_neg hhide
  have hy : footerY f = f.layout.margin+32/10 := if_neg hhide
  have hfree : ∀ t ∈ texts marks, footerY f+ascentMm f.layout.footerPt ≤ t.y ∨
      t.y = footerY f ∧ t.x+lineWidth t ≤ footerX f footer := by
    intro t ht
    have hhigh := (hg.legible t ht).2
    refine .inl ?_
    rw [hfloor] at hhigh
    rw [hy]
    linarith
  rw [drawScale,if_neg hhide]
  exact drawFooter_good hf hlen.1 hfoot.small hfoot.pos (hchars.trans htwenty) hx.ge
    (by rw [hx]; linarith) (by rw [hy]; linarith) (by rw [hy,hfloor]; linarith) hr
    (hg.mono hf.floor) hfree

end Page

theorem frameOf_footing {paper : EffectivePaper} {content : TestPageContent}
    (h : 26 ≤ min paper.widthMm paper.heightMm) (hfooter : content.footer.isEmpty = false) :
    Footing (frameOf paper content) := by
  have hs := pageType_sized h
  have hwide := min_le_left paper.widthMm paper.heightMm
  have hmargin := hs.marginHigh
  have hsmall := hs.footerHigh.1
  have height := hs.footerHigh.2
  have htwenty : charsMm 20 (pageType paper).footerPt ≤ (frameOf paper content).maxWidth := by
    rw [maxWidth_eq h,charsMm]
    push_cast
    linarith
  refine ⟨lt_of_lt_of_le (by norm_num) hs.footerLow,hs.footerTitle,?_,
    le_trans (by norm_num) hs.titleLow,htwenty,?_⟩
  · change (pageType paper).footerPt*(254/10)/72*(88/100) ≤ 3
    linarith
  · rcases floor_cases paper hfooter with ⟨hshow,hlarge,hfloor⟩ | hplain
    · refine .inl ⟨hshow,hfloor,?_⟩
      rw [maxWidth_eq h,charsMm]
      change 28+((20 : ℕ) : ℚ)*(pageType paper).footerPt*_*_/_ ≤ _
      push_cast
      linarith
    · exact .inr hplain

/-- The page of a brief content on large enough paper is complete and legible. -/
theorem brief_page_legible {paper : EffectivePaper} {content : TestPageContent}
    (h : 26 ≤ min paper.widthMm paper.heightMm) (hc : Brief content) :
    ∃ marks, paint (testPageOps paper content) = some marks ∧
      Good (frameOf paper content) (pageType paper).margin marks ∧
      ∃ t ∈ texts marks, t.text = pdfSafe content.footer := by
  have hfooter := isEmpty_of_length hc.footer.1
  have hf := frameOf_roomy h hfooter
  have hfoot := frameOf_footing h hfooter
  obtain ⟨body,hready,hgood,-,-⟩ := drawBody_body hf hc
  have hend : ∃ after, Ready (drawFooter (frameOf paper content) content.footer (drawScale
        (frameOf paper content) (drawBody (frameOf paper content) content
          (start (frameOf paper content))))) after ∧
      Good (frameOf paper content) (pageType paper).margin after ∧
      ∃ t ∈ texts after, t.text = pdfSafe content.footer := by
    rcases hfoot.ends with ⟨hshow,hfloor,hwide⟩ | ⟨hshow,hfloor⟩
    · exact footer_beside_caption hf hfoot hshow hfloor hwide hc.footer hready hgood
    · exact footer_below_body hf hfoot hshow hfloor hc.footer hready hgood
  obtain ⟨marks,⟨fill,hrun⟩,hg,ht⟩ := hend
  refine ⟨marks,?_,hg,ht⟩
  rw [paint,testPageOps,Pen.push,run_append,hrun]
  rfl

theorem buildTestPage_brief (config : AgentConfig) (printerName : String) (paper : EffectivePaper)
    {device : DeviceInfo} (printer : Option PrinterInfo) (trays : List PrinterTrayInfo)
    {stamp : Option String} (h : device.printedAt = currentPrintedAt stamp) :
    Brief (buildTestPage config printerName paper device printer trays) where
  title := (by decide : "Yinshu".length ≠ 0 ∧ "Yinshu".length ≤ 8)
  kicker := (by decide : "Test page".length ≤ 9)
  labels _ hgroup _ hrow := label_short hgroup hrow
  footer := by
    have hlen := currentPrintedAt_length stamp
    rw [← h] at hlen
    exact hlen.symm

/-- Whatever the configuration, the printer, its trays and the computer are called: on
paper from 26 millimetres on every text of the test page is inside the margins and clear
of the others, all else is on the page, and the time of printing is there. -/
theorem page_legible (config : AgentConfig) (printerName : String) (paper : EffectivePaper)
    (device : DeviceInfo) (printer : Option PrinterInfo) (trays : List PrinterTrayInfo)
    (stamp : Option String) (hpaper : 26 ≤ min paper.widthMm paper.heightMm)
    (hstamp : device.printedAt = currentPrintedAt stamp) :
    ∃ marks, paint (testPageOps paper
        (buildTestPage config printerName paper device printer trays)) = some marks ∧
      (∀ t ∈ texts marks, Legible (frameOf paper
        (buildTestPage config printerName paper device printer trays)) t) ∧
      (texts marks).Pairwise Separate ∧ (∀ mark ∈ marks, Inside paper mark) ∧
      ∃ t ∈ texts marks, t.text = pdfSafe device.printedAt := by
  obtain ⟨marks,hpaint,hgood,hfooter⟩ := brief_page_legible hpaper
    (buildTestPage_brief config printerName paper printer trays hstamp)
  exact ⟨marks,hpaint,fun t ht => (hgood.legible t ht).1,hgood.separate,hgood.inside,hfooter⟩

def studio : DeviceInfo where
  hostname := "studio.local"
  username := "ethan"
  os := "macOS aarch64"
  localIp := some "192.168.1.23"
  printedAt := "2026-09-15 00:37 UTC"

theorem page_legible_label :
    ∃ marks, paint (testPageOps ⟨60,40⟩ (buildTestPage AgentConfig.default "Zebra_GX430t" ⟨60,40⟩
        studio none [⟨"Tray1","Tray 1"⟩])) = some marks ∧ (texts marks).Pairwise Separate ∧
      ∃ t ∈ texts marks, t.text = pdfSafe "2026-09-15 00:37 UTC" := by
  have hstamp : studio.printedAt = currentPrintedAt (some "2026-09-15T00:37:00Z") := by decide
  obtain ⟨marks,hpaint,-,hseparate,-,hfooter⟩ := page_legible AgentConfig.default "Zebra_GX430t"
    ⟨60,40⟩ studio none [⟨"Tray1","Tray 1"⟩] (some "2026-09-15T00:37:00Z") (by norm_num) hstamp
  exact ⟨marks,hpaint,hseparate,hfooter⟩

end YinShu.TestPageComplete
