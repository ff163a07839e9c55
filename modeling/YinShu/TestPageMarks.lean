import Mathlib.Tactic.Linarith
import YinShu.TestPageLayout

/-!
# The marks of one wrapped text

A wrapped text becomes a column of lines: printable, no wider than asked for, each
a line height below the one before and none below the floor. A line that holds no
more than eight characters fits wherever eight characters do.
-/

set_option autoImplicit false

namespace YinShu.TestPageMarks
open YinShu.LabelledRun YinShu.PdfText YinShu.TestPageLayout

section Wrapping

/-- What the built-in fonts can show. -/
def Printable (text : String) : Prop := ∀ c ∈ text.toList, isAsciiGraphic c = true ∨ c = ' '

theorem pdfSafe_printable (text : String) : Printable (pdfSafe text) := by
  intro c hc
  rw [pdfSafe,String.toList_ofList] at hc
  obtain ⟨d,-,rfl⟩ := List.mem_map.mp hc
  by_cases hg : isAsciiGraphic d = true
  · simp [hg]
  · by_cases hs : d = ' '
    · simp [hs]
    · rw [if_neg (by simp [hg,hs])]
      decide

theorem pdfSafe_length (text : String) : (pdfSafe text).length = text.length := by
  rw [pdfSafe,String.length_ofList,List.length_map,String.length_toList]

theorem printable_of_ink {lines : List (List Char)} {text : String}
    (h : lines.flatMap inked = inked (pdfSafe text).toList) {line : List Char}
    (hline : line ∈ lines) : Printable (String.ofList line) := by
  intro c hc
  rw [String.toList_ofList] at hc
  by_cases hs : c = ' '
  · exact .inr hs
  · have hink : c ∈ lines.flatMap inked :=
      List.mem_flatMap.mpr ⟨line,hline,List.mem_filter.mpr ⟨hc,by simp [hs]⟩⟩
    rw [h] at hink
    exact pdfSafe_printable text c (List.mem_filter.mp hink).1

theorem wrapped_spec (text : String) {maxChars : ℕ} (h : 1 ≤ maxChars) :
    ∀ line ∈ wrapped text maxChars, line.length ≤ maxChars ∧ Printable line := by
  intro line hline
  unfold wrapped wrapPdfText at hline
  by_cases hempty : (pdfSafe text).isEmpty = true
  · have hnil : line = "" := by simpa [hempty] using hline
    rw [hnil]
    exact ⟨Nat.zero_le _,fun c hc => by simp at hc⟩
  · obtain ⟨t,hloop,hrest,ht⟩ := wrapLoop_inv h (inv_start (pdfSafe_plain text))
    have hfuel : (pdfSafe text).toList.length < (pdfSafe text).length+1 := by
      rw [String.length_toList]
      exact Nat.lt_succ_self _
    have hmem : ∃ cs ∈ t.lines++[t.rest], String.ofList cs = line := by
      simp only [hempty,hloop _ hfuel] at hline
      obtain ⟨cs,hcs,rfl⟩ := List.mem_map.mp hline
      refine ⟨cs,?_,rfl⟩
      split at hcs
      · exact List.mem_append_left _ hcs
      · exact hcs
    obtain ⟨cs,hcs,rfl⟩ := hmem
    have hink : (t.lines++[t.rest]).flatMap inked = inked (pdfSafe text).toList := by
      rw [List.flatMap_append,List.flatMap_singleton]
      exact ht.kept
    refine ⟨?_,printable_of_ink hink hcs⟩
    rw [String.length_ofList]
    rcases List.mem_append.mp hcs with hold | hlast
    · exact ht.short cs hold
    · rw [List.mem_singleton.mp hlast]
      exact hrest

/-- A short text is one line. -/
theorem wrapped_single {text : String} {maxChars : ℕ} (hpos : text.length ≠ 0)
    (h : text.length ≤ maxChars) : wrapped text maxChars = [pdfSafe text] := by
  have hlen := pdfSafe_length text
  have hempty : ¬ (pdfSafe text).isEmpty = true := by
    rw [String.isEmpty_iff]
    intro he
    rw [he] at hlen
    exact hpos hlen.symm
  have hshort : ¬ maxChars < (pdfSafe text).toList.length := by
    rw [String.length_toList]
    omega
  have hrest : (pdfSafe text).toList.isEmpty = false := by
    rw [List.isEmpty_eq_false_iff]
    intro he
    exact hempty (String.isEmpty_iff.mpr (String.toList_eq_nil_iff.mp he))
  simp [wrapped,wrapPdfText,hempty,wrapLoop,hshort,hrest]

end Wrapping

section Width

/-- The width of as many characters. -/
def charsMm (count : ℕ) (sizePt : ℚ) : ℚ := (count : ℚ)*sizePt*(52/100)*(254/10)/72

variable {sizePt width : ℚ} {count : ℕ}

theorem charsMm_mono {other : ℕ} (hs : 0 ≤ sizePt) (h : count ≤ other) :
    charsMm count sizePt ≤ charsMm other sizePt := by
  have hc : (count : ℚ) ≤ other := by exact_mod_cast h
  have hm := mul_le_mul_of_nonneg_right hc hs
  unfold charsMm
  linarith

theorem le_floor_iff (hs : 0 < sizePt) :
    (count : ℚ) ≤ (width*72/(254/10))/(sizePt*(52/100)) ↔ charsMm count sizePt ≤ width := by
  rw [le_div_iff₀ (by linarith)]
  unfold charsMm
  constructor <;> intro h <;> linarith

theorem le_maxChars (hs : 0 < sizePt) (h : charsMm count sizePt ≤ width) :
    count ≤ maxCharsForWidth width sizePt := by
  have hfloor : (count : ℤ) ≤ ((width*72/(254/10))/(sizePt*(52/100))).floor :=
    Rat.le_floor_iff.mpr (by exact_mod_cast (le_floor_iff hs).mpr h)
  unfold maxCharsForWidth
  omega

/-- A line of the greatest length fits, if eight characters do. -/
theorem line_fits (hs : 0 < sizePt) (h8 : charsMm 8 sizePt ≤ width)
    (h : count ≤ maxCharsForWidth width sizePt) : charsMm count sizePt ≤ width := by
  by_cases hshort : count ≤ 8
  · exact (charsMm_mono hs.le hshort).trans h8
  · apply (le_floor_iff hs).mp
    have hfloor : (count : ℤ) ≤ ((width*72/(254/10))/(sizePt*(52/100))).floor := by
      unfold maxCharsForWidth at h
      omega
    exact_mod_cast Rat.le_floor_iff.mp hfloor

end Width

section Columns

def lineOf : Mark → Option TextLine
  | .text line => some line
  | _ => none

def texts (marks : List Mark) : List TextLine := marks.filterMap lineOf

theorem texts_append (marks others : List Mark) :
    texts (marks++others) = texts marks++texts others := List.filterMap_append

theorem texts_lines (lines : List TextLine) : texts (lines.map Mark.text) = lines := by
  induction lines with
  | nil => rfl
  | cons line lines ih => exact congrArg (line::·) ih

/-- The pen has closed what it opened, but for the state saved at the start. -/
def Ready (p : Pen) (marks : List Mark) : Prop :=
  ∃ fill, run apply p.ops {} = some ⟨1,fill,none,marks⟩

variable {style : TextStyle} {x floor : ℚ} {p : Pen} {marks : List Mark}

theorem Ready.push (h : Ready p marks) {ops : List Op} {new : List Mark}
    (hops : ∀ fill, ∃ after, run apply ops ⟨1,fill,none,marks⟩ =
      some ⟨1,after,none,marks++new⟩) : Ready (p.push ops) (marks++new) := by
  obtain ⟨fill,hrun⟩ := h
  obtain ⟨after,hafter⟩ := hops fill
  exact ⟨after,by rw [Pen.push,run_append,hrun]; exact hafter⟩

theorem Ready.down (h : Ready p marks) (distance : ℚ) : Ready (p.down distance) marks := h

theorem Ready.line (h : Ready p marks) (style : TextStyle) (x : ℚ) (line : String) :
    Ready (p.push (lineOps style x p.y line))
      (marks++[.text ⟨style.font,style.sizePt,style.color,x,p.y,line⟩]) :=
  h.push (fun _ => ⟨style.color,rfl⟩)

def lineGap (style : TextStyle) : ℚ := ptMm style.sizePt*(128/100)

/-- What the loop adds to a page: `q` is the pen after it. -/
structure Column (style : TextStyle) (x floor top : ℚ) (lines : List String) (q : Pen)
    (new : List TextLine) : Prop where
  each : ∀ t ∈ new, t.size = style.sizePt ∧ t.x = x ∧ t.text ∈ lines ∧ t.text ≠ "" ∧
    floor ≤ t.y ∧ q.y ≤ t.y
  spaced : new.Pairwise (fun a b => b.y+lineGap style ≤ a.y)
  below : q.y ≤ top

theorem lineGap_nonneg (hs : 0 ≤ style.sizePt) : 0 ≤ lineGap style := by
  unfold lineGap ptMm
  linarith

/-- Lines after the first one start a line height below the pen. -/
theorem drawLines_spec (x floor : ℚ) (hs : 0 ≤ style.sizePt) (lines : List String) (first : Bool)
    (h : Ready p marks) : ∃ new, Ready (drawLines style x floor first lines p)
        (marks++new.map Mark.text) ∧
      Column style x floor p.y lines (drawLines style x floor first lines p) new ∧
      ∀ t ∈ new, (first = true ∧ t.y = p.y) ∨ t.y+lineGap style ≤ p.y := by
  have hgap := lineGap_nonneg hs
  induction lines generalizing first p marks with
  | nil =>
    have hend : drawLines style x floor first [] p = p := by cases first <;> rfl
    rw [hend]
    exact ⟨[],by simpa using h,⟨by simp,.nil,le_refl _⟩,by simp⟩
  | cons line lines ih =>
    let q := if first then p else p.down (ptMm style.sizePt*(128/100))
    have hq : Ready q marks := by
      cases first
      · exact h.down _
      · exact h
    have hqy : (first = true ∧ q.y = p.y) ∨ q.y+lineGap style ≤ p.y := by
      cases first
      · exact .inr (by simp [q,Pen.down,lineGap])
      · exact .inl ⟨rfl,rfl⟩
    have hle : q.y ≤ p.y := by
      rcases hqy with ⟨-,h⟩ | h
      · exact h.le
      · linarith
    have hunfold : drawLines style x floor first (line::lines) p =
        if q.y < floor then q
        else if line.isEmpty then drawLines style x floor false lines q
        else drawLines style x floor false lines (q.push (lineOps style x q.y line)) := rfl
    rw [hunfold]
    by_cases hfloor : q.y < floor
    · rw [if_pos hfloor]
      exact ⟨[],by simpa using hq,⟨by simp,.nil,hle⟩,by simp⟩
    · rw [if_neg hfloor]
      by_cases hempty : line.isEmpty = true
      · rw [if_pos hempty]
        obtain ⟨new,hready,hcolumn,hbelow⟩ := ih false hq
        refine ⟨new,hready,⟨fun t ht => ?_,hcolumn.spaced,hcolumn.below.trans hle⟩,fun t ht => ?_⟩
        · obtain ⟨hsize,hx,hmem,hrest⟩ := hcolumn.each t ht
          exact ⟨hsize,hx,List.mem_cons_of_mem _ hmem,hrest⟩
        · rcases hbelow t ht with ⟨hfalse,-⟩ | hlow
          · cases hfalse
          · exact .inr (hlow.trans hle)
      · rw [if_neg hempty]
        obtain ⟨new,hready,hcolumn,hbelow⟩ := ih false (hq.line style x line)
        have hnext : ∀ t ∈ new, t.y+lineGap style ≤ q.y := by
          intro t ht
          rcases hbelow t ht with ⟨hfalse,-⟩ | hlow
          · cases hfalse
          · exact hlow
        refine ⟨⟨style.font,style.sizePt,style.color,x,q.y,line⟩::new,?_,⟨?_,?_,?_⟩,?_⟩
        · simpa using hready
        · intro t ht
          rcases List.mem_cons.mp ht with rfl | ht
          · refine ⟨rfl,rfl,List.mem_cons_self,?_,not_lt.mp hfloor,hcolumn.below⟩
            exact fun he => hempty (String.isEmpty_iff.mpr he)
          · obtain ⟨hsize,hx,hmem,hrest⟩ := hcolumn.each t ht
            exact ⟨hsize,hx,List.mem_cons_of_mem _ hmem,hrest⟩
        · exact List.pairwise_cons.mpr ⟨hnext,hcolumn.spaced⟩
        · exact hcolumn.below.trans hle
        · intro t ht
          rcases List.mem_cons.mp ht with rfl | ht
          · exact hqy
          · exact .inr ((hnext t ht).trans hle)

/-- One line of a text that is short is drawn where the pen is, or nothing is. -/
theorem drawWrapped_single (style : TextStyle) {text : String} {width : ℚ} (hpos : text.length ≠ 0)
    (h : text.length ≤ maxCharsForWidth width style.sizePt) (hfloor : floor ≤ p.y) :
    drawWrapped style x floor width text p = p.push (lineOps style x p.y (pdfSafe text)) := by
  have hne : ¬ (pdfSafe text).isEmpty = true := by
    rw [String.isEmpty_iff]
    intro he
    have hlen := pdfSafe_length text
    rw [he] at hlen
    exact hpos hlen.symm
  rw [drawWrapped,wrapped_single hpos h]
  simp [drawLines,hne,not_lt.mpr hfloor]

end Columns

end YinShu.TestPageMarks
