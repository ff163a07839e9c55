import YinShu.TestPageMarks

/-!
# A legible test page

On paper whose shorter side is at least 26 millimetres everything on the test page
can be read: each line of text lies inside the margins, no line runs into another
one, the frame, the rule and the scale are on the page, and the time of printing is
always there, however many trays, sites and long names there are.
-/

set_option autoImplicit false

namespace YinShu.TestPageLegible
open YinShu.LabelledRun YinShu.PdfText YinShu.Protocol YinShu.PrintModel YinShu.Settings
open YinShu.TestPage YinShu.TestPageLayout YinShu.TestPageMarks

def ascentMm (sizePt : ℚ) : ℚ := ptMm sizePt*(88/100)

def lineWidth (t : TextLine) : ℚ := textWidthMm t.text t.size

/-- The lower one of two lines stays below the other, or they are side by side. -/
def Separate (a b : TextLine) : Prop :=
  b.y+ascentMm b.size ≤ a.y ∨ a.y = b.y ∧ a.x+lineWidth a ≤ b.x

structure Legible (f : Frame) (t : TextLine) : Prop where
  left : f.layout.margin ≤ t.x
  right : t.x+lineWidth t ≤ f.paper.widthMm-f.layout.margin
  bottom : f.layout.margin ≤ t.y
  top : t.y+ascentMm t.size ≤ f.paper.heightMm-f.layout.margin
  shown : t.text ≠ ""
  printable : Printable t.text

def OnPage (paper : EffectivePaper) (point : Point) : Prop :=
  0 ≤ point.1 ∧ point.1 ≤ paper.widthMm ∧ 0 ≤ point.2 ∧ point.2 ≤ paper.heightMm

def Inside (paper : EffectivePaper) : Mark → Prop
  | .text _ => True
  | .stroke points | .area points => ∀ point ∈ points, OnPage paper point

/-- The marks so far, of which no text is below the given height. -/
structure Good (f : Frame) (bottom : ℚ) (marks : List Mark) : Prop where
  legible : ∀ t ∈ texts marks, Legible f t ∧ bottom ≤ t.y
  separate : (texts marks).Pairwise Separate
  inside : ∀ mark ∈ marks, Inside f.paper mark

/-- A column for text of this size that starts at `x` and is as wide as `width`. -/
structure Fits (f : Frame) (sizePt x width : ℚ) : Prop where
  pos : 0 < sizePt
  small : sizePt ≤ f.layout.titlePt
  left : f.layout.margin ≤ x
  right : x+width ≤ f.paper.widthMm-f.layout.margin
  eight : charsMm 8 sizePt ≤ width

def Below (f : Frame) (y : ℚ) : Prop :=
  y+ascentMm f.layout.titlePt ≤ f.paper.heightMm-f.layout.margin

section Columns

variable {f : Frame} {style : TextStyle} {x width bottom floor : ℚ} {p : Pen} {marks : List Mark}

theorem ascentMm_mono {a b : ℚ} (h : a ≤ b) : ascentMm a ≤ ascentMm b := by
  unfold ascentMm ptMm
  linarith

theorem ascent_le_gap (h : 0 < style.sizePt) : ascentMm style.sizePt ≤ lineGap style := by
  unfold ascentMm lineGap ptMm
  linarith

theorem Good.mono (h : Good f bottom marks) {lower : ℚ} (hl : lower ≤ bottom) :
    Good f lower marks where
  legible t ht := ⟨(h.legible t ht).1,hl.trans (h.legible t ht).2⟩
  separate := h.separate
  inside := h.inside

theorem Good.lines (h : Good f bottom marks) (new : List TextLine)
    (hlegible : ∀ t ∈ new, Legible f t ∧ bottom ≤ t.y) (hnew : new.Pairwise Separate)
    (hold : ∀ t ∈ texts marks, ∀ u ∈ new, Separate t u) :
    Good f bottom (marks++new.map Mark.text) where
  legible t ht := by
    rw [texts_append,texts_lines] at ht
    rcases List.mem_append.mp ht with ht | ht
    · exact h.legible t ht
    · exact hlegible t ht
  separate := by
    rw [texts_append,texts_lines]
    exact List.pairwise_append.mpr ⟨h.separate,hnew,hold⟩
  inside mark hmark := by
    rcases List.mem_append.mp hmark with hmark | hmark
    · exact h.inside mark hmark
    · obtain ⟨t,-,rfl⟩ := List.mem_map.mp hmark
      trivial

/-- A column keeps the page legible, where its first line is free. -/
theorem drawWrapped_good (style : TextStyle) (hfit : Fits f style.sizePt x width)
    (hmargin : f.layout.margin ≤ floor) (hbottom : bottom ≤ floor) (hr : Ready p marks)
    (hg : Good f bottom marks) (htop : Below f p.y)
    (hfree : ∀ t ∈ texts marks,
      p.y+ascentMm style.sizePt ≤ t.y ∨ t.y = p.y ∧ t.x+lineWidth t ≤ x) (text : String) :
    ∃ new : List TextLine,
      Ready (drawWrapped style x floor width text p) (marks++new.map Mark.text) ∧
      Good f bottom (marks++new.map Mark.text) ∧
      (drawWrapped style x floor width text p).y ≤ p.y ∧
      ∀ t ∈ new, (drawWrapped style x floor width text p).y ≤ t.y := by
  have hpos := hfit.pos
  have hasc := ascent_le_gap hpos
  have hgap := lineGap_nonneg hpos.le
  obtain ⟨new,hready,hcolumn,hbelow⟩ :=
    drawLines_spec x floor hpos.le
      (wrapped text (maxCharsForWidth width style.sizePt)) true hr
  have hunder : ∀ t ∈ new, t.y ≤ p.y := by
    intro t ht
    rcases hbelow t ht with ⟨-,h⟩ | h
    · exact h.le
    · linarith
  refine ⟨new,hready,hg.lines new (fun t ht => ?_) ?_ (fun t ht u hu => ?_),
    hcolumn.below,fun t ht => (hcolumn.each t ht).2.2.2.2.2⟩
  · obtain ⟨hsize,hx,hmem,hshown,hfloor,-⟩ := hcolumn.each t ht
    have hchars : 1 ≤ maxCharsForWidth width style.sizePt :=
      (by decide : 1 ≤ 8).trans (le_max_right _ _)
    obtain ⟨hlen,hprint⟩ := wrapped_spec text hchars t.text hmem
    have hwidth : lineWidth t ≤ width := by
      rw [lineWidth,hsize]
      exact line_fits hpos hfit.eight hlen
    have hsmall := ascentMm_mono hfit.small
    have hy := hunder t ht
    have hright := hfit.right
    unfold Below at htop
    refine ⟨⟨hx ▸ hfit.left,?_,hmargin.trans hfloor,?_,hshown,hprint⟩,hbottom.trans hfloor⟩
    · rw [hx]
      linarith
    · rw [hsize]
      linarith
  · refine hcolumn.spaced.imp_of_mem (fun {a b} _ hb hab => .inl ?_)
    rw [(hcolumn.each b hb).1]
    linarith
  · obtain ⟨hsize,hx,-⟩ := hcolumn.each u hu
    rcases hfree t ht with h | ⟨hsame,hside⟩
    · have hy := hunder u hu
      refine .inl ?_
      rw [hsize]
      linarith
    · rcases hbelow u hu with ⟨-,h⟩ | h
      · exact .inr ⟨hsame.trans h.symm,hx ▸ hside⟩
      · refine .inl ?_
        rw [hsize]
        linarith

/-- A text of one line needs its own width only. -/
theorem single_good (line : TextLine) {text : String} (hsmall : line.size ≤ f.layout.titlePt)
    (hx : f.layout.margin ≤ line.x) (htext : line.text = pdfSafe text) (hlen : text.length ≠ 0)
    (hwidth : line.x+charsMm text.length line.size ≤ f.paper.widthMm-f.layout.margin)
    (hmargin : f.layout.margin ≤ line.y) (hbottom : bottom ≤ line.y) (htop : Below f line.y)
    (hg : Good f bottom marks) (hfree : ∀ t ∈ texts marks, Separate t line) :
    Good f bottom (marks++[.text line]) := by
  have hline : Legible f line := by
    refine ⟨hx,?_,hmargin,?_,?_,htext ▸ pdfSafe_printable text⟩
    · rw [lineWidth,htext,textWidthMm,pdfSafe_length]
      exact hwidth
    · have hasc := ascentMm_mono hsmall
      unfold Below at htop
      linarith
    · rw [htext]
      intro he
      have hsafe := pdfSafe_length text
      rw [he] at hsafe
      exact hlen hsafe.symm
  apply hg.lines [line]
  · intro t ht
    rw [List.mem_singleton.mp ht]
    exact ⟨hline,hbottom⟩
  · exact List.pairwise_singleton _ _
  · intro t ht u hu
    rw [List.mem_singleton.mp hu]
    exact hfree t ht

theorem Good.shape (hg : Good f bottom marks) {mark : Mark} (hm : lineOf mark = none)
    (hin : Inside f.paper mark) : Good f bottom (marks++[mark]) where
  legible t ht := by
    rw [texts_append] at ht
    exact hg.legible t (by simpa [texts,hm] using ht)
  separate := by
    rw [texts_append]
    simpa [texts,hm] using hg.separate
  inside other hother := by
    rcases List.mem_append.mp hother with hold | hnew
    · exact hg.inside other hold
    · rw [List.mem_singleton.mp hnew]
      exact hin

end Columns

/-- The sizes of a page leave room for every part of it. -/
structure Roomy (f : Frame) : Prop where
  margin : 0 < f.layout.margin
  floor : f.layout.margin ≤ f.floor
  side : f.layout.margin+f.maxWidth = f.paper.widthMm-f.layout.margin
  wide : f.layout.margin*2 ≤ f.paper.widthMm
  high : f.layout.margin*2 ≤ f.paper.heightMm
  title : Fits f f.layout.titlePt f.layout.margin f.maxWidth
  kicker : Fits f f.layout.kickerPt f.layout.margin f.maxWidth
  kickerNine : charsMm 9 f.layout.kickerPt ≤ f.maxWidth
  subtitle : Fits f f.layout.subtitlePt f.layout.margin f.maxWidth
  heading : Fits f f.layout.headingPt f.layout.margin f.maxWidth
  body : Fits f f.layout.bodyPt f.layout.margin f.maxWidth
  label : Fits f f.layout.bodyPt f.layout.margin (f.layout.labelColMm-15/10)
  value : Fits f f.layout.bodyPt (f.layout.margin+f.layout.labelColMm)
    (max (f.maxWidth-f.layout.labelColMm) 8)
  headingDrop : ascentMm f.layout.headingPt ≤ 42/10
  ruleDrop : ascentMm f.layout.subtitlePt ≤ 52/10 ∧ ascentMm f.layout.bodyPt ≤ 52/10
  start : f.floor ≤ (start f).y
  rule : ptMm f.layout.kickerPt*(155/100)+34/10 ≤ (TestPageLayout.start f).y

/-- The page so far, with so much room above the pen. -/
def Body (f : Frame) (room : ℚ) (p : Pen) : Prop :=
  ∃ marks, Ready p marks ∧ Good f f.floor marks ∧ (∀ t ∈ texts marks, p.y+room ≤ t.y) ∧
    Below f p.y

section Body

variable {f : Frame} {style : TextStyle} {x width room : ℚ} {p : Pen}

theorem Body.mono (h : Body f room p) {less : ℚ} (hl : less ≤ room) : Body f less p := by
  obtain ⟨marks,hready,hgood,hroom,hbelow⟩ := h
  refine ⟨marks,hready,hgood,fun t ht => ?_,hbelow⟩
  have := hroom t ht
  linarith

theorem Body.down (h : Body f room p) (distance : ℚ) (hd : 0 ≤ distance) :
    Body f (room+distance) (p.down distance) := by
  obtain ⟨marks,hready,hgood,hroom,hbelow⟩ := h
  refine ⟨marks,hready.down distance,hgood,fun t ht => ?_,?_⟩
  · have := hroom t ht
    change p.y-distance+(room+distance) ≤ t.y
    linarith
  · unfold Below at hbelow ⊢
    change p.y-distance+ascentMm f.layout.titlePt ≤ _
    linarith

theorem Body.wrapped (style : TextStyle) (hf : Roomy f) (h : Body f room p)
    (hfit : Fits f style.sizePt x width) (hroom : ascentMm style.sizePt ≤ room) (text : String) :
    Body f 0 (drawWrapped style x f.floor width text p) := by
  obtain ⟨marks,hready,hgood,hold,hbelow⟩ := h
  have hasc : 0 ≤ ascentMm style.sizePt := by
    have := hfit.pos
    unfold ascentMm ptMm
    linarith
  obtain ⟨new,hready',hgood',hle,hnew⟩ := drawWrapped_good style hfit hf.floor (le_refl _) hready
    hgood hbelow (fun t ht => .inl (by have := hold t ht; linarith)) text
  refine ⟨_,hready',hgood',fun t ht => ?_,?_⟩
  · rw [texts_append,texts_lines] at ht
    rw [add_zero]
    rcases List.mem_append.mp ht with ht | ht
    · have := hold t ht
      linarith
    · exact hnew t ht
  · unfold Below at hbelow ⊢
    linarith

theorem ascentMm_nonneg {sizePt : ℚ} (h : 0 ≤ sizePt) : 0 ≤ ascentMm sizePt := by
  unfold ascentMm ptMm
  linarith

theorem charsMm_nonneg (count : ℕ) {sizePt : ℚ} (h : 0 ≤ sizePt) : 0 ≤ charsMm count sizePt := by
  have hprod : 0 ≤ (count : ℚ)*sizePt := mul_nonneg (Nat.cast_nonneg count) h
  unfold charsMm
  linarith

/-- The label of a row is one line beside the first line of its value. -/
theorem Body.row (hf : Roomy f) (h : Body f (ascentMm f.layout.bodyPt) p) {row : TestPageRow}
    (hlabel : row.label.length ≤ 8) (hfloor : f.floor ≤ p.y) : Body f 0 (drawRow f row p) := by
  unfold drawRow
  by_cases hempty : row.label.isEmpty = true
  · rw [if_pos hempty]
    exact h.wrapped ⟨.helvetica,f.layout.bodyPt,0⟩ hf hf.body (le_refl _) row.value
  · rw [if_neg hempty]
    have hlen : row.label.length ≠ 0 := by
      intro hzero
      exact hempty (String.isEmpty_iff.mpr (String.length_eq_zero_iff.mp hzero))
    have hpos := hf.body.pos
    have hshort : charsMm row.label.length f.layout.bodyPt ≤ f.layout.labelColMm-15/10 :=
      (charsMm_mono hpos.le hlabel).trans hf.label.eight
    have hone := le_maxChars hpos hshort
    rw [drawWrapped_single ⟨.helvetica,f.layout.bodyPt,4/10⟩ hlen hone hfloor]
    obtain ⟨marks,hready,hgood,hold,hbelow⟩ := h
    let line : TextLine :=
      ⟨.helvetica,f.layout.bodyPt,4/10,f.layout.margin,p.y,pdfSafe row.label⟩
    have hright := hf.label.right
    have hlabelled : Good f f.floor (marks++[.text line]) := by
      refine single_good line hf.body.small (le_refl _) rfl hlen ?_
        (hf.floor.trans hfloor) hfloor hbelow hgood (fun t ht => .inl (hold t ht))
      change f.layout.margin+charsMm row.label.length f.layout.bodyPt ≤ _
      linarith
    have hfree : ∀ t ∈ texts (marks++[.text line]),
        p.y+ascentMm f.layout.bodyPt ≤ t.y ∨
          t.y = p.y ∧ t.x+lineWidth t ≤ f.layout.margin+f.layout.labelColMm := by
      intro t ht
      rw [texts_append] at ht
      rcases List.mem_append.mp ht with ht | ht
      · exact .inl (hold t ht)
      · rw [List.mem_singleton.mp ht]
        refine .inr ⟨rfl,?_⟩
        change f.layout.margin+charsMm (pdfSafe row.label).length f.layout.bodyPt ≤ _
        rw [pdfSafe_length]
        linarith
    obtain ⟨new,hready',hgood',hle,hnew⟩ := drawWrapped_good ⟨.helvetica,f.layout.bodyPt,0⟩
      (p := { p.push (lineOps ⟨.helvetica,f.layout.bodyPt,4/10⟩ f.layout.margin p.y
        (pdfSafe row.label)) with y := p.y })
      hf.value hf.floor (le_refl _)
      (hready.line ⟨.helvetica,f.layout.bodyPt,4/10⟩ f.layout.margin (pdfSafe row.label))
      hlabelled hbelow hfree row.value
    refine ⟨_,hready',hgood',fun t ht => ?_,?_⟩
    · rw [add_zero]
      rw [texts_append,texts_append,texts_lines] at ht
      rcases List.mem_append.mp ht with ht | ht
      · have hasc := ascentMm_nonneg hpos.le
        rcases List.mem_append.mp ht with ht | ht
        · have := hold t ht
          linarith
        · rw [List.mem_singleton.mp ht]
          exact hle
      · exact hnew t ht
    · unfold Below at hbelow ⊢
      linarith

theorem Body.rows (hf : Roomy f) (rows : List TestPageRow)
    (hlabels : ∀ row ∈ rows, row.label.length ≤ 8) (h : Body f (ascentMm f.layout.bodyPt) p) :
    Body f (ascentMm f.layout.bodyPt) (drawRows f rows p) := by
  induction rows generalizing p with
  | nil => exact h
  | cons row rows ih =>
    rw [drawRows]
    split
    · exact h
    · case isFalse hfloor =>
      apply ih (fun row hrow => hlabels row (List.mem_cons_of_mem _ hrow))
      have hpos := hf.body.pos
      have hrow := (h.row hf (hlabels row List.mem_cons_self) (not_lt.mp hfloor)).down
        (ptMm f.layout.bodyPt*(138/100)) (by unfold ptMm; linarith)
      apply hrow.mono
      unfold ascentMm ptMm
      linarith

theorem Body.heading (hf : Roomy f) (heading : String)
    (h : Body f (ascentMm f.layout.bodyPt) p) :
    Body f (ascentMm f.layout.bodyPt) (drawHeading f heading p) := by
  unfold drawHeading
  split
  · exact h
  · have hpos := hf.body.pos
    have hasc := ascentMm_nonneg hpos.le
    have hdrop := hf.headingDrop
    have hdown := (h.down (42/10) (by norm_num)).wrapped
      ⟨.helveticaBold,f.layout.headingPt,4/10⟩ hf hf.heading
      (hdrop.trans (by linarith)) (String.ofList (heading.toList.map Char.toUpper))
    have hrows := hdown.down (ptMm f.layout.bodyPt*(145/100)) (by unfold ptMm; linarith)
    apply hrows.mono
    unfold ascentMm ptMm
    linarith

theorem Body.sections (hf : Roomy f) (groups : List TestPageSection)
    (hlabels : ∀ group ∈ groups, ∀ row ∈ group.rows, row.label.length ≤ 8)
    (h : Body f (ascentMm f.layout.bodyPt) p) :
    Body f (ascentMm f.layout.bodyPt) (drawSections f groups p) := by
  induction groups generalizing p with
  | nil => exact h
  | cons group groups ih =>
    rw [drawSections]
    split
    · exact h
    · apply ih (fun group hgroup => hlabels group (List.mem_cons_of_mem _ hgroup))
      exact (h.heading hf group.heading).rows hf group.rows (hlabels group List.mem_cons_self)

theorem Body.subtitle (hf : Roomy f) (subtitle : String) (h : Body f (52/10) p) :
    Body f (ascentMm f.layout.bodyPt) (drawSubtitle f subtitle p) := by
  unfold drawSubtitle
  split
  · have hsub := (h.wrapped ⟨.helvetica,f.layout.subtitlePt,28/100⟩ hf hf.subtitle
      hf.ruleDrop.1 subtitle).down (65/10) (by norm_num)
    apply hsub.mono
    have := hf.ruleDrop.2
    linarith
  · exact h.mono hf.ruleDrop.2

/-- The rule under the title is on the page where the pen leaves room for it. -/
theorem Body.rule (hf : Roomy f) {content : TestPageContent} (ht : content.title.isEmpty = false)
    (h : Body f 0 p) (hlow : 34/10 ≤ p.y) : Body f (52/10) (drawRule f content p) := by
  have hcond : (!content.title.isEmpty || !content.kicker.isEmpty) = true := by simp [ht]
  rw [drawRule,if_pos hcond]
  have hdown := h.down (34/10) (by norm_num)
  obtain ⟨marks,hready,hgood,hold,hbelow⟩ := hdown
  have hpushed : Body f (0+34/10) ((p.down (34/10)).push [.setOutlineColor 0,
      .setOutlineThickness (35/100),
      .drawLine [(f.layout.margin,(p.down (34/10)).y),
        (f.layout.margin+f.maxWidth,(p.down (34/10)).y)] false]) := by
    refine ⟨_,hready.push (fun fill => ⟨fill,rfl⟩),hgood.shape rfl ?_,fun t htext => ?_,hbelow⟩
    · have hside := hf.side
      have hwide := hf.wide
      have hmargin := hf.margin
      have hasc := ascentMm_nonneg hf.title.pos.le
      unfold Below at hbelow
      change p.y-34/10+_ ≤ _ at hbelow
      intro point hpoint
      simp only [List.mem_cons,List.not_mem_nil,or_false] at hpoint
      rcases hpoint with rfl | rfl
      · refine ⟨hmargin.le,?_,?_,?_⟩ <;> simp only [Pen.down] <;> linarith
      · refine ⟨?_,?_,?_,?_⟩ <;> simp only [Pen.down] <;> linarith
    · rw [texts_append] at htext
      exact hold t (by simpa [texts,lineOf] using htext)
  exact (hpushed.down (52/10) (by norm_num)).mono (by norm_num)

end Body

end YinShu.TestPageLegible
