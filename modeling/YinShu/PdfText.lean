import YinShu.ByteOffset
import YinShu.TextScan

/-!
# Wrapping text for the built-in PDF fonts

A text is first made safe for the built-in fonts and then broken into lines of
at most a given number of characters, if possible at a space in the second half
of the line. The loop works on byte offsets of what is left; every pass takes
at least one character away and drops nothing but spaces.
-/

set_option autoImplicit false

namespace YinShu.PdfText
open YinShu.TextScan YinShu.ByteOffset

def isAsciiGraphic (c : Char) : Bool := 0x21 ≤ c.toNat && c.toNat ≤ 0x7E

def pdfSafe (text : String) : String :=
  String.ofList (text.toList.map (fun c => if isAsciiGraphic c || c == ' ' then c else '?'))

def trimStart (cs : List Char) : List Char := cs.dropWhile isWhitespace
def trimEnd (cs : List Char) : List Char := cs.rdropWhile isWhitespace

/-- The lines pushed so far and the text that is left. -/
structure Wrapping where
  lines : List (List Char)
  rest : List Char
  deriving DecidableEq, Repr

section Loop

variable (maxChars : ℕ)

def splitOffset (rest : List Char) : ℕ :=
  (((charIndices 0 rest).take maxChars).getLast?.map
    (fun entry => entry.1+entry.2.utf8Size)).getD (byteLength rest)

def cutOffset (candidate : List Char) (splitAt : ℕ) : ℕ :=
  let cut := ((rfind ' ' candidate).filter (fun index => maxChars/2 ≤ index)).getD splitAt
  if cut = 0 then splitAt else cut

/-- One pass of the loop; it stops with `none` where a slice of the text would
begin or end inside a character. -/
def wrapStep (s : Wrapping) : Option Wrapping :=
  let splitAt := splitOffset maxChars s.rest
  match splitAtByte splitAt s.rest with
  | none => none
  | some (candidate,_) =>
    match splitAtByte (cutOffset maxChars candidate splitAt) s.rest with
    | none => none
    | some (line,rest) => some ⟨s.lines++[trimEnd line],trimStart rest⟩

def wrapLoop : ℕ → Wrapping → Option Wrapping
  | 0, _ => none
  | fuel+1, s =>
    if maxChars < s.rest.length then
      match wrapStep maxChars s with
      | none => none
      | some t => wrapLoop fuel t
    else some s

def wrapPdfText (fuel : ℕ) (text : String) : Option (List String) :=
  let text := pdfSafe text
  if text.isEmpty then some [""]
  else match wrapLoop maxChars fuel ⟨[],text.toList⟩ with
    | none => none
    | some s => some ((if s.rest.isEmpty then s.lines else s.lines++[s.rest]).map String.ofList)

end Loop

/-- The characters that are not spaces. -/
def inked (cs : List Char) : List Char := cs.filter (· != ' ')

/-- The only white space is the space itself. -/
def Plain (cs : List Char) : Prop := ∀ c ∈ cs, isWhitespace c = true → c = ' '

theorem inked_append (front back : List Char) :
    inked (front++back) = inked front++inked back := List.filter_append _ _

theorem inked_reverse (cs : List Char) : inked cs.reverse = (inked cs).reverse :=
  List.filter_reverse

theorem Plain.sublist {cs ds : List Char} (h : Plain cs) (hs : ds.Sublist cs) : Plain ds :=
  fun c hc => h c (hs.subset hc)

theorem inked_trimStart {cs : List Char} (h : Plain cs) : inked (trimStart cs) = inked cs := by
  have hdropped : inked (cs.takeWhile isWhitespace) = [] := by
    rw [inked,List.filter_eq_nil_iff]
    intro c hc
    have hspace := h c ((List.takeWhile_prefix _).subset hc) (List.mem_takeWhile_imp hc)
    simp [hspace]
  calc inked (trimStart cs) = inked (cs.takeWhile isWhitespace)++inked (trimStart cs) := by
        rw [hdropped,List.nil_append]
    _ = inked cs := by
        rw [← inked_append,trimStart,List.takeWhile_append_dropWhile]

theorem inked_trimEnd {cs : List Char} (h : Plain cs) : inked (trimEnd cs) = inked cs := by
  have hr : Plain cs.reverse := fun c hc => h c (List.mem_reverse.mp hc)
  calc inked (trimEnd cs) = (inked (trimStart cs.reverse)).reverse := inked_reverse _
    _ = (inked cs.reverse).reverse := congrArg List.reverse (inked_trimStart hr)
    _ = inked cs := by rw [inked_reverse,List.reverse_reverse]

theorem isWhitespace_graphic {c : Char} (h : isAsciiGraphic c = true) :
    isWhitespace c = false := by
  simp only [isAsciiGraphic,Bool.and_eq_true,decide_eq_true_eq] at h
  simp [isWhitespace]
  omega

theorem pdfSafe_plain (text : String) : Plain (pdfSafe text).toList := by
  intro c hc hw
  rw [pdfSafe,String.toList_ofList] at hc
  obtain ⟨d,-,rfl⟩ := List.mem_map.mp hc
  by_cases hg : isAsciiGraphic d = true
  · simp [hg,isWhitespace_graphic hg] at hw
  · by_cases hs : d = ' '
    · simp [hs]
    · simp [hg,hs] at hw
      exact absurd hw (by decide)

section Step

variable {maxChars : ℕ} {text : List Char} {s : Wrapping}

theorem splitOffset_eq (h1 : 1 ≤ maxChars) {rest : List Char} (hr : rest ≠ []) :
    splitOffset maxChars rest = byteLength (rest.take maxChars) := by
  have hne : rest.take maxChars ≠ [] := by
    rw [Ne,List.take_eq_nil_iff]
    rintro (h0|h0)
    · omega
    · exact hr h0
  rw [splitOffset,charIndices_take,charIndices_getLast hne,Option.getD_some,Nat.zero_add]

/-- The cut falls behind a first part of the candidate that is not empty. -/
theorem cutOffset_spec {candidate : List Char} (hc : candidate ≠ []) :
    ∃ front back, candidate = front++back ∧ front ≠ [] ∧
      cutOffset maxChars candidate (byteLength candidate) = byteLength front := by
  have hwhole : ∃ front back, candidate = front++back ∧ front ≠ [] ∧
      byteLength candidate = byteLength front :=
    ⟨candidate,[],(List.append_nil _).symm,hc,rfl⟩
  unfold cutOffset
  cases hf : (rfind ' ' candidate).filter (fun index => decide (maxChars/2 ≤ index)) with
  | none => simpa using hwhole
  | some index =>
    by_cases h0 : index = 0
    · simpa [h0] using hwhole
    · obtain ⟨hfind,-⟩ := Option.filter_eq_some_iff.mp hf
      obtain ⟨front,back,hcand,-,hlen⟩ := rfind_some hfind
      refine ⟨front,' '::back,hcand,?_,by simp [h0,hlen]⟩
      rintro rfl
      exact h0 hlen.symm

/-- One pass on a text that is too long pushes a first part of it. -/
theorem wrapStep_spec (h1 : 1 ≤ maxChars) (hr : maxChars < s.rest.length) :
    ∃ front back, s.rest = front++back ∧ front ≠ [] ∧ front.length ≤ maxChars ∧
      wrapStep maxChars s = some ⟨s.lines++[trimEnd front],trimStart back⟩ := by
  have hrest : s.rest ≠ [] := List.ne_nil_of_length_pos (by omega)
  have hsplit := List.take_append_drop maxChars s.rest
  have hlen : (s.rest.take maxChars).length = maxChars := List.length_take_of_le hr.le
  have hcand : s.rest.take maxChars ≠ [] := List.ne_nil_of_length_pos (by omega)
  obtain ⟨front,back,htake,hfront,hcut⟩ := @cutOffset_spec maxChars _ hcand
  have hwhole : s.rest = front++(back++s.rest.drop maxChars) := by
    rw [← List.append_assoc,← htake,hsplit]
  have hfirst := splitAtByte_append (s.rest.take maxChars) (s.rest.drop maxChars)
  have hsecond := splitAtByte_append front (back++s.rest.drop maxChars)
  rw [hsplit] at hfirst
  rw [← hwhole] at hsecond
  refine ⟨front,back++s.rest.drop maxChars,hwhole,hfront,?_,?_⟩
  · have hle : front.length+back.length = maxChars := by
      rw [← List.length_append,← htake,hlen]
    omega
  · simp only [wrapStep,splitOffset_eq h1 hrest,hfirst,hcut,hsecond]

/-- Lines are short, and lines and rest together have the ink of the text. -/
structure Inv (maxChars : ℕ) (text : List Char) (s : Wrapping) : Prop where
  short : ∀ line ∈ s.lines, line.length ≤ maxChars
  plain : Plain s.rest
  kept : s.lines.flatMap inked++inked s.rest = inked text

theorem inv_start (h : Plain text) : Inv maxChars text ⟨[],text⟩ where
  short := by simp
  plain := h
  kept := by simp

theorem wrapStep_inv (h1 : 1 ≤ maxChars) (hr : maxChars < s.rest.length)
    (h : Inv maxChars text s) :
    ∃ t, wrapStep maxChars s = some t ∧ t.rest.length < s.rest.length ∧ Inv maxChars text t := by
  obtain ⟨front,back,hrest,hne,hlen,hstep⟩ := wrapStep_spec h1 hr
  have hplain : Plain (front++back) := hrest ▸ h.plain
  have hfront := hplain.sublist (List.sublist_append_left front back)
  have hback := hplain.sublist (List.sublist_append_right front back)
  refine ⟨_,hstep,?_,?_,?_,?_⟩
  · have hpos := List.length_pos_of_ne_nil hne
    have htrim : (trimStart back).length ≤ back.length :=
      (List.dropWhile_suffix _).length_le
    rw [hrest,List.length_append]
    show (trimStart back).length < front.length+back.length
    omega
  · intro line hline
    rcases List.mem_append.mp hline with hold | hnew
    · exact h.short line hold
    · rw [List.mem_singleton.mp hnew]
      exact (List.rdropWhile_prefix _ _).length_le.trans hlen
  · exact hback.sublist (List.dropWhile_suffix _).sublist
  · calc (s.lines++[trimEnd front]).flatMap inked++inked (trimStart back)
        = s.lines.flatMap inked++(inked front++inked back) := by
          rw [List.flatMap_append,List.flatMap_singleton,inked_trimEnd hfront,
            inked_trimStart hback,List.append_assoc]
      _ = s.lines.flatMap inked++inked s.rest := by rw [hrest,inked_append]
      _ = inked text := h.kept

/-- The loop ends on every text, and from some fuel on the fuel no longer matters. -/
theorem wrapLoop_inv (h1 : 1 ≤ maxChars) (h : Inv maxChars text s) :
    ∃ t, (∀ fuel, s.rest.length < fuel → wrapLoop maxChars fuel s = some t) ∧
      t.rest.length ≤ maxChars ∧ Inv maxChars text t := by
  induction hn : s.rest.length using Nat.strong_induction_on generalizing s with
  | _ n ih =>
    by_cases hr : maxChars < s.rest.length
    · obtain ⟨t,hstep,hless,ht⟩ := wrapStep_inv h1 hr h
      obtain ⟨u,hloop,hshort,hu⟩ := ih t.rest.length (hn ▸ hless) ht rfl
      refine ⟨u,fun fuel hf => ?_,hshort,hu⟩
      obtain ⟨k,rfl⟩ : ∃ k, fuel = k+1 := ⟨fuel-1,by omega⟩
      rw [wrapLoop,if_pos hr,hstep]
      exact hloop k (by omega)
    · refine ⟨s,fun fuel hf => ?_,Nat.not_lt.mp hr,h⟩
      obtain ⟨k,rfl⟩ : ∃ k, fuel = k+1 := ⟨fuel-1,by omega⟩
      rw [wrapLoop,if_neg hr]

end Step

/-- `wrap_pdf_text` returns on every text and loses nothing but spaces: with
enough fuel it never stops at a slice inside a character, its lines are short,
and their ink is the ink of the text made safe. -/
theorem wrap_pdf_text_lossless (text : String) (maxChars : ℕ) (h : 1 ≤ maxChars) :
    ∃ lines : List String,
      (∀ fuel, (pdfSafe text).length < fuel → wrapPdfText maxChars fuel text = some lines) ∧
      (∀ line ∈ lines, line.length ≤ maxChars) ∧
      lines.flatMap (fun line => inked line.toList) = inked (pdfSafe text).toList := by
  by_cases hempty : (pdfSafe text).isEmpty = true
  · refine ⟨[""],fun fuel _ => ?_,by simp,?_⟩
    · rw [wrapPdfText,if_pos hempty]
    · rw [String.isEmpty_iff.mp hempty]
      rfl
  · obtain ⟨t,hloop,hrest,ht⟩ := wrapLoop_inv h (inv_start (pdfSafe_plain text))
    refine ⟨(if t.rest.isEmpty then t.lines else t.lines++[t.rest]).map String.ofList,
      fun fuel hf => ?_,?_,?_⟩
    · rw [wrapPdfText,if_neg hempty,hloop fuel (by rwa [String.length_toList])]
    · intro line hline
      obtain ⟨cs,hcs,rfl⟩ := List.mem_map.mp hline
      rw [String.length_ofList]
      split at hcs
      · exact ht.short cs hcs
      · rcases List.mem_append.mp hcs with hold | hlast
        · exact ht.short cs hold
        · rw [List.mem_singleton.mp hlast]
          exact hrest
    · rw [List.flatMap_map,← ht.kept]
      split
      · case isTrue he =>
        have hnil : inked t.rest = [] := by rw [List.isEmpty_iff.mp he]; rfl
        simp [hnil]
      · simp

theorem wrap_pdf_text_lossless_words :
    ∃ lines : List String, wrapPdfText 10 19 "one two three four" = some lines ∧
      lines = ["one two","three four"] ∧
      lines.flatMap (fun line => inked line.toList) = "onetwothreefour".toList := by
  obtain ⟨lines,hw,-,hk⟩ := wrap_pdf_text_lossless "one two three four" 10 (by decide)
  have hsafe : pdfSafe "one two three four" = "one two three four" := by decide +kernel
  have hrun : wrapPdfText 10 19 "one two three four" = some ["one two","three four"] := by
    decide +kernel
  have hlines : wrapPdfText 10 19 "one two three four" = some lines :=
    hw 19 (by rw [hsafe]; decide)
  rw [hsafe] at hk
  exact ⟨lines,hlines,Option.some.inj (hlines.symm.trans hrun),hk⟩

end YinShu.PdfText
