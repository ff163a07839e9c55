import YinShu.LabelledRun
import YinShu.TestPage

/-!
# Drawing the test page

The page is drawn from top to bottom with a pen that holds the operations so far
and the height of the next line. What is drawn is read off the operations by a
painter, which refuses operations in an order that a PDF reader would not accept.
Millimetres and points are exact rationals.
-/

set_option autoImplicit false

namespace YinShu.TestPageLayout
open YinShu.LabelledRun YinShu.TextScan YinShu.Protocol YinShu.PdfText YinShu.TestPage

inductive Font where
  | helvetica
  | helveticaBold
  deriving DecidableEq, Repr

abbrev Point := ℚ × ℚ

inductive Op where
  | saveGraphicsState
  | restoreGraphicsState
  | setOutlineColor (gray : ℚ)
  | setOutlineThickness (pt : ℚ)
  | drawLine (points : List Point) (isClosed : Bool)
  | setFillColor (gray : ℚ)
  | drawPolygon (points : List Point)
  | startTextSection
  | setFont (font : Font) (size : ℚ)
  | setTextCursor (pos : Point)
  | showText (text : String)
  | endTextSection
  deriving DecidableEq, Repr

section Painter

structure TextLine where
  font : Font
  size : ℚ
  gray : ℚ
  x : ℚ
  y : ℚ
  text : String
  deriving DecidableEq, Repr

inductive Mark where
  | text (line : TextLine)
  | stroke (points : List Point)
  | area (points : List Point)
  deriving DecidableEq, Repr

structure TextSection where
  font : Option (Font × ℚ) := none
  cursor : Option Point := none

structure Painter where
  depth : ℕ := 0
  fill : ℚ := 0
  text : Option TextSection := none
  marks : List Mark := []

def apply (p : Painter) : Op → Option Painter
  | .saveGraphicsState => if p.text.isNone then some { p with depth := p.depth+1 } else none
  | .restoreGraphicsState =>
    if p.text.isNone ∧ 0 < p.depth then some { p with depth := p.depth-1 } else none
  | .setOutlineColor _ | .setOutlineThickness _ => some p
  | .drawLine points _ =>
    if p.text.isNone then some { p with marks := p.marks++[.stroke points] } else none
  | .setFillColor gray => some { p with fill := gray }
  | .drawPolygon points =>
    if p.text.isNone then some { p with marks := p.marks++[.area points] } else none
  | .startTextSection => if p.text.isNone then some { p with text := some {} } else none
  | .setFont font size =>
    p.text.map (fun t => { p with text := some { t with font := some (font,size) } })
  | .setTextCursor pos =>
    p.text.map (fun t => { p with text := some { t with cursor := some pos } })
  | .showText text =>
    match p.text with
    | some ⟨some (font,size),some (x,y)⟩ =>
      some { p with marks := p.marks++[.text ⟨font,size,p.fill,x,y,text⟩] }
    | _ => none
  | .endTextSection => if p.text.isSome then some { p with text := none } else none

/-- The marks on the page, where every section and every saved state is closed again. -/
def paint (ops : List Op) : Option (List Mark) :=
  (run apply ops {}).bind (fun p => if p.text.isNone ∧ p.depth = 0 then some p.marks else none)

end Painter

section Pen

structure Pen where
  ops : List Op
  y : ℚ

def Pen.push (p : Pen) (ops : List Op) : Pen := { p with ops := p.ops++ops }
def Pen.down (p : Pen) (distance : ℚ) : Pen := { p with y := p.y-distance }

structure TextStyle where
  font : Font
  sizePt : ℚ
  color : ℚ

def ptMm (sizePt : ℚ) : ℚ := sizePt*(254/10)/72

def textWidthMm (text : String) (sizePt : ℚ) : ℚ :=
  (text.length : ℚ)*sizePt*(52/100)*(254/10)/72

def maxCharsForWidth (maxWidthMm fontPt : ℚ) : ℕ :=
  max ((maxWidthMm*72/(254/10))/(fontPt*(52/100))).floor.toNat 8

/-- `wrap_pdf_text`, which needs no more passes than the text has characters. -/
def wrapped (text : String) (maxChars : ℕ) : List String :=
  (wrapPdfText maxChars ((pdfSafe text).length+1) text).getD []

def lineOps (style : TextStyle) (x y : ℚ) (line : String) : List Op :=
  [.startTextSection,.setFillColor style.color,.setFont style.font style.sizePt,
    .setTextCursor (x,y),.showText line,.endTextSection]

variable (style : TextStyle) (x floor : ℚ)

/-- The loop of `draw_wrapped`. -/
def drawLines : Bool → List String → Pen → Pen
  | _, [], p => p
  | first, line::lines, p =>
    let p := if first then p else p.down (ptMm style.sizePt*(128/100))
    if p.y < floor then p
    else if line.isEmpty then drawLines false lines p
    else drawLines false lines (p.push (lineOps style x p.y line))

def drawWrapped (maxWidthMm : ℚ) (text : String) (p : Pen) : Pen :=
  drawLines style x floor true (wrapped text (maxCharsForWidth maxWidthMm style.sizePt)) p

end Pen

structure PageType where
  margin : ℚ
  titlePt : ℚ
  kickerPt : ℚ
  subtitlePt : ℚ
  headingPt : ℚ
  bodyPt : ℚ
  footerPt : ℚ
  labelColMm : ℚ
  showKicker : Bool
  showSubtitle : Bool
  showScale : Bool

def clamp (value low high : ℚ) : ℚ := max low (min value high)

def pageType (paper : EffectivePaper) : PageType :=
  let minSide := min paper.widthMm paper.heightMm
  { margin := clamp (minSide*(85/1000)) (12/10) 18
    titlePt := clamp (minSide*(124/1000)) 8 26
    kickerPt := clamp (minSide*(43/1000)) (55/10) 9
    subtitlePt := clamp (minSide*(52/1000)) 6 11
    headingPt := clamp (minSide*(38/1000)) (55/10) 8
    bodyPt := clamp (minSide*(52/1000)) (65/10) 11
    footerPt := clamp (minSide*(38/1000)) (55/10) 8
    labelColMm := clamp (minSide*(114/1000)) 12 24
    showKicker := decide (36 ≤ minSide)
    showSubtitle := decide (80 ≤ minSide)
    showScale := decide (140 ≤ minSide) }

/-- What the parts of the page have in common. -/
structure Frame where
  paper : EffectivePaper
  layout : PageType
  maxWidth : ℚ
  floor : ℚ

def frameOf (paper : EffectivePaper) (content : TestPageContent) : Frame :=
  let layout := pageType paper
  { paper := paper
    layout := layout
    maxWidth := max (paper.widthMm-layout.margin*2) 4
    floor := if layout.showScale then layout.margin+14
      else if !content.footer.isEmpty then layout.margin+8
      else layout.margin }

section Parts

variable (f : Frame)

def outline : List Op :=
  let near := f.layout.margin*(4/10)
  [.setOutlineColor 0,.setOutlineThickness (35/100),
    .drawLine [(near,near),(f.paper.widthMm-near,near),
      (f.paper.widthMm-near,f.paper.heightMm-near),(near,f.paper.heightMm-near)] true]

def drawTitle (title : String) (p : Pen) : Pen :=
  if title.isEmpty then p
  else drawWrapped ⟨.helveticaBold,f.layout.titlePt,0⟩ f.layout.margin f.floor f.maxWidth title p

def drawKicker (kicker : String) (p : Pen) : Pen :=
  if f.layout.showKicker && !kicker.isEmpty then
    drawWrapped ⟨.helvetica,f.layout.kickerPt,4/10⟩ f.layout.margin f.floor f.maxWidth kicker
      (p.down (ptMm f.layout.kickerPt*(155/100)))
  else p

def drawRule (content : TestPageContent) (p : Pen) : Pen :=
  if !content.title.isEmpty || !content.kicker.isEmpty then
    let p := p.down (34/10)
    (p.push [.setOutlineColor 0,.setOutlineThickness (35/100),
      .drawLine [(f.layout.margin,p.y),(f.layout.margin+f.maxWidth,p.y)] false]).down (52/10)
  else p

def drawSubtitle (subtitle : String) (p : Pen) : Pen :=
  if f.layout.showSubtitle && !subtitle.isEmpty then
    (drawWrapped ⟨.helvetica,f.layout.subtitlePt,28/100⟩ f.layout.margin f.floor f.maxWidth
      subtitle p).down (65/10)
  else p

def drawHeading (heading : String) (p : Pen) : Pen :=
  if heading.isEmpty then p
  else (drawWrapped ⟨.helveticaBold,f.layout.headingPt,4/10⟩ f.layout.margin f.floor f.maxWidth
    (String.ofList (heading.toList.map Char.toUpper)) (p.down (42/10))).down
      (ptMm f.layout.bodyPt*(145/100))

/-- The values start behind the column of the labels. -/
def drawRow (row : TestPageRow) (p : Pen) : Pen :=
  if row.label.isEmpty then
    drawWrapped ⟨.helvetica,f.layout.bodyPt,0⟩ f.layout.margin f.floor f.maxWidth row.value p
  else
    let labelled := drawWrapped ⟨.helvetica,f.layout.bodyPt,4/10⟩ f.layout.margin f.floor
      (f.layout.labelColMm-15/10) row.label p
    drawWrapped ⟨.helvetica,f.layout.bodyPt,0⟩ (f.layout.margin+f.layout.labelColMm) f.floor
      (max (f.maxWidth-f.layout.labelColMm) 8) row.value { labelled with y := p.y }

def drawRows : List TestPageRow → Pen → Pen
  | [], p => p
  | row::rows, p =>
    if p.y < f.floor then p
    else drawRows rows ((drawRow f row p).down (ptMm f.layout.bodyPt*(138/100)))

def drawSections : List TestPageSection → Pen → Pen
  | [], p => p
  | group::groups, p =>
    if p.y < f.floor+6 then p
    else drawSections groups (drawRows f group.rows (drawHeading f group.heading p))

def barY : ℚ := f.layout.margin+34/10

def drawScale (p : Pen) : Pen :=
  if f.layout.showScale then
    let barWidth := min 20 f.maxWidth
    let bar : List Point := [(f.layout.margin,barY f),(f.layout.margin+barWidth,barY f),
      (f.layout.margin+barWidth,barY f+13/10),(f.layout.margin,barY f+13/10)]
    drawWrapped ⟨.helvetica,7,35/100⟩ f.layout.margin f.layout.margin f.maxWidth "20 mm"
      { p.push [.setFillColor 0,.drawPolygon bar] with y := barY f+54/10 }
  else p

def footerX (footer : String) : ℚ :=
  if f.layout.showScale then
    max (f.paper.widthMm-f.layout.margin-textWidthMm footer f.layout.footerPt)
      (f.layout.margin+28)
  else f.layout.margin

def footerY : ℚ := if f.layout.showScale then barY f+54/10 else f.layout.margin+32/10

def drawFooter (footer : String) (p : Pen) : Pen :=
  if footer.isEmpty then p
  else drawWrapped ⟨.helvetica,f.layout.footerPt,4/10⟩ (footerX f footer) f.layout.margin
    f.maxWidth footer { p with y := footerY f }

def drawBody (content : TestPageContent) (p : Pen) : Pen :=
  drawSections f content.sections (drawSubtitle f content.subtitle (drawRule f content
    (drawKicker f content.kicker (drawTitle f content.title p))))

def start : Pen where
  ops := .saveGraphicsState::outline f
  y := f.paper.heightMm-f.layout.margin-ptMm f.layout.titlePt*(88/100)

end Parts

def testPageOps (paper : EffectivePaper) (content : TestPageContent) : List Op :=
  let f := frameOf paper content
  ((drawFooter f content.footer (drawScale f (drawBody f content (start f)))).push
    [.restoreGraphicsState]).ops

end YinShu.TestPageLayout
