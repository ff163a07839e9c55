import YinShu.DecimalText
import YinShu.PaperSizes
import Mathlib.Data.List.Find

/-!
# Paper tokens of the printing system

A token is looked up by its parts in a table of known papers; only a token
that names none of them is read as a size. The size stands at the end, after
the last thing that is neither a digit nor a point. What a token with a size
means is therefore decided by the words before it.
-/

set_option autoImplicit false

namespace YinShu.CupsPaper
open YinShu.TextScan YinShu.TextPieces YinShu.DecimalText YinShu.PrintModel YinShu.PaperSizes

structure KnownPaper where
  parts : List String
  name : String
  widthMm : ℚ
  heightMm : ℚ

/-- The branches of the lookup, in their order. -/
def knownPapers : List KnownPaper :=
  [⟨["a3","a3jis"],"A3",297,420⟩,
    ⟨["a4","a4jis"],"A4",210,297⟩,
    ⟨["a5","a5jis"],"A5",148,210⟩,
    ⟨["a6","a6jis"],"A6",105,148⟩,
    ⟨["b4jis"],"B4",257,364⟩,
    ⟨["b5jis"],"B5",182,257⟩,
    ⟨["b6jis"],"B6",128,182⟩,
    ⟨["letter"],"Letter",2159/10,2794/10⟩,
    ⟨["legal"],"Legal",2159/10,3556/10⟩,
    ⟨["tabloid"],"Tabloid",2794/10,4318/10⟩,
    ⟨["ledger"],"Ledger",4318/10,2794/10⟩,
    ⟨["executive"],"Executive",18415/100,2667/10⟩]

def normalizedMediaToken (choice : List Char) : List Char :=
  choice.map (fun c => if c.isAlphanum then c.toLower else '_')

def mediaTokenHasPart (token : List Char) (part : String) : Bool :=
  (splitChars '_' token).any (· == part.toList)

def knownPaperSize (choice : List Char) : Option KnownPaper :=
  knownPapers.find? (fun known =>
    known.parts.any (mediaTokenHasPart (normalizedMediaToken choice)))

def roundMm (value : ℚ) : ℚ := roundHalfAway (value*100)/100

inductive SizeUnit where
  | mm
  | inch
  deriving DecidableEq, Repr

def SizeUnit.text : SizeUnit → List Char
  | .mm => ['m','m']
  | .inch => ['i','n']

def SizeUnit.toMm : SizeUnit → ℚ → ℚ
  | .mm, value => value
  | .inch, value => value*(254/10)

def stripUnitSuffix (size : List Char) : List Char × Option SizeUnit :=
  if ['m','m'].isSuffixOf (size.map Char.toLower) then (size.take (size.length-2),some .mm)
  else if ['i','n'].isSuffixOf (size.map Char.toLower) then
    (size.take (size.length-2),some .inch)
  else (size,none)

/-- `replace("mmx", "x")`. -/
def replaceMmx : List Char → List Char
  | 'm':: 'm':: 'x'::cs => 'x'::replaceMmx cs
  | c::cs => c::replaceMmx cs
  | [] => []

def parseDimensionPair (size : List Char) : Option (ℚ × ℚ) := do
  let stripped := stripUnitSuffix (replaceMmx size)
  let parts ← rsplitOnceChars 'x' stripped.1
  let width ← trailingNumber parts.1
  let height ← leadingNumber parts.2
  let useInches := stripped.2 == some .inch || (stripped.2.isNone && width ≤ 20 && height ≤ 20)
  return if useInches then (roundMm (width*(254/10)),roundMm (height*(254/10)))
    else (roundMm width,roundMm height)

/-- The token without the prefix of a custom size. -/
def sizePart (choice : List Char) : List Char :=
  ((stripStart "Custom.".toList choice).or (stripStart "custom_".toList choice)).getD choice

def parsePaperChoice (choice : String) : Option PaperInfo :=
  match knownPaperSize choice.toList with
  | some known => some ⟨choice,known.name,known.widthMm,known.heightMm⟩
  | none => (parseDimensionPair (sizePart choice.toList)).map (fun dims =>
      ⟨choice,paperName dims.1 dims.2,dims.1,dims.2⟩)

def parsePaperLine (line : List Char) : List PaperInfo :=
  match splitOnceChars ':' line with
  | none => []
  | some (_,choices) => (splitWhitespace choices).filterMap (fun choice =>
      parsePaperChoice (String.ofList (choice.dropWhile (· == '*'))))

def parseLpoptionsPapers (output : String) : List PaperInfo :=
  ((lines output.toList).filter (fun line =>
    "pagesize/".toList.isPrefixOf (line.map Char.toLower) ||
      "media/".toList.isPrefixOf (line.map Char.toLower))).flatMap parsePaperLine

/-- The text of a size with its unit. -/
def sizeText (width height : Numeral) (unit : SizeUnit) : List Char :=
  width.text++ 'x'::(height.text++unit.text)

/-- The token `<words>_<W>x<H><unit>`. -/
def mediaName (words : String) (width height : Numeral) (unit : SizeUnit) : String :=
  words++"_"++String.ofList (sizeText width height unit)

section Sizes

variable (width height : Numeral) (unit : SizeUnit)

theorem not_mem_text {c : Char} (hc : isNumberChar c = false) : c ∉ width.text := by
  intro hm
  rw [text_chars width c hm] at hc
  cases hc

theorem replaceMmx_cons {c : Char} (hc : c ≠ 'm') (cs : List Char) :
    replaceMmx (c::cs) = c::replaceMmx cs := by
  rw [replaceMmx]
  rintro rest rfl
  exact absurd rfl hc

theorem replaceMmx_of_not_mem {front : List Char} (hf : 'm' ∉ front) (rest : List Char) :
    replaceMmx (front++rest) = front++replaceMmx rest := by
  induction front with
  | nil => rfl
  | cons c front ih =>
    obtain ⟨hc,hf⟩ := not_or.mp (fun h => hf (List.mem_cons.mpr h))
    rw [List.cons_append,replaceMmx_cons (Ne.symm hc),ih hf,List.cons_append]

/-- The pattern never reaches over an underscore. -/
theorem replaceMmx_append (front rest : List Char) :
    replaceMmx (front++ '_'::rest) = replaceMmx front++ '_'::replaceMmx rest := by
  fun_induction replaceMmx front with
  | case1 cs ih => simpa [replaceMmx] using ih
  | case2 c cs hne ih =>
    rw [List.cons_append,List.cons_append,← ih,replaceMmx]
    rintro tail rfl htail
    rcases cs with _ | ⟨d,_ | ⟨e,cs⟩⟩
    · simp at htail
    · simp at htail
    · refine hne cs rfl ?_
      simp_all
  | case3 => exact replaceMmx_cons (by decide) rest

theorem replaceMmx_sizeText :
    replaceMmx (sizeText width height unit) = sizeText width height unit := by
  have hw : 'm' ∉ width.text++['x'] := by
    simpa using not_mem_text width (c := 'm') (by decide)
  have hh : 'm' ∉ height.text := not_mem_text height (by decide)
  have hsize : sizeText width height unit = (width.text++['x'])++(height.text++unit.text) := by
    simp [sizeText]
  rw [hsize,replaceMmx_of_not_mem hw,replaceMmx_of_not_mem hh]
  cases unit <;> rfl

theorem stripUnitSuffix_append (front : List Char) :
    stripUnitSuffix (front++unit.text) = (front,some unit) := by
  cases unit with
  | mm =>
    have hs : ['m','m'].isSuffixOf ((front++SizeUnit.mm.text).map Char.toLower) = true := by
      rw [List.isSuffixOf_iff_suffix,List.map_append]
      exact List.suffix_append _ _
    rw [stripUnitSuffix,if_pos hs]
    simp [SizeUnit.text]
  | inch =>
    have hn : ¬['m','m'].isSuffixOf ((front++SizeUnit.inch.text).map Char.toLower) = true := by
      rw [List.isSuffixOf_iff_suffix,List.map_append]
      rintro ⟨rest,hr⟩
      have hlast := congrArg List.getLast? hr
      simp [SizeUnit.text] at hlast
    have hs : ['i','n'].isSuffixOf ((front++SizeUnit.inch.text).map Char.toLower) = true := by
      rw [List.isSuffixOf_iff_suffix,List.map_append]
      exact List.suffix_append _ _
    rw [stripUnitSuffix,if_neg hn,if_pos hs]
    simp [SizeUnit.text]

/-- What may stand before a size. -/
def Boundary (front : List Char) : Prop := front = [] ∨ ∃ words, front = words++['_']

/-- A size is read as it is written, in its unit. -/
theorem parseDimensionPair_sizeText {front : List Char} (hf : Boundary front) :
    parseDimensionPair (front++sizeText width height unit) =
      some (roundMm (unit.toMm width.value),roundMm (unit.toMm height.value)) := by
  have hreplaced : ∃ front', replaceMmx (front++sizeText width height unit) =
      front'++sizeText width height unit ∧
        ∀ c, front'.getLast? = some c → isNumberChar c = false := by
    rcases hf with rfl | ⟨words,rfl⟩
    · exact ⟨[],replaceMmx_sizeText width height unit,by simp⟩
    · refine ⟨replaceMmx words++['_'],?_,?_⟩
      · rw [List.append_assoc,List.singleton_append,replaceMmx_append,replaceMmx_sizeText]
        simp
      · simp [isNumberChar]
  obtain ⟨front',hr,hlast⟩ := hreplaced
  have hunit : front'++sizeText width height unit =
      (front'++width.text++ 'x'::height.text)++unit.text := by
    simp [sizeText]
  have hx : 'x' ∉ height.text := not_mem_text height (by decide)
  unfold parseDimensionPair
  rw [hr,hunit,stripUnitSuffix_append]
  simp only [rsplitOnceChars_append _ hx,trailingNumber_append width hlast,leadingNumber_text,
    Option.bind_eq_bind,Option.bind_some]
  cases unit <;> rfl

end Sizes

section Tokens

/-- The characters of a size in a normalized token. -/
def isSizeChar (c : Char) : Bool := c.isDigit || ['x','m','i','n','_'].contains c

theorem normalized_sizeText (width height : Numeral) (unit : SizeUnit) :
    ∀ c ∈ normalizedMediaToken (sizeText width height unit), isSizeChar c = true := by
  have hnumber : ∀ c, isNumberChar c = true →
      isSizeChar (if c.isAlphanum then c.toLower else '_') = true := by
    intro c hc
    rcases Bool.or_eq_true_iff.mp hc with hd | hd
    · simp [Char.isAlphanum,hd,toLower_of_isDigit hd,isSizeChar]
    · rw [beq_iff_eq.mp hd]
      decide
  have hunit : ∀ c ∈ unit.text,
      isSizeChar (if c.isAlphanum then c.toLower else '_') = true :=
    List.all_eq_true.mp (by cases unit <;> rfl)
  intro c hc
  obtain ⟨d,hd,rfl⟩ := List.mem_map.mp hc
  rcases List.mem_append.mp hd with hd | hd
  · exact hnumber d (text_chars width d hd)
  · rcases List.mem_cons.mp hd with rfl | hd
    · decide
    · rcases List.mem_append.mp hd with hd | hd
      · exact hnumber d (text_chars height d hd)
      · exact hunit d hd

/-- Every name in the table has a character that no size has. -/
theorem known_not_size : ∀ known ∈ knownPapers, ∀ part ∈ known.parts,
    ∃ c ∈ part.toList, isSizeChar c = false := by
  have hany : ∀ known ∈ knownPapers, ∀ part ∈ known.parts,
      part.toList.any (fun c => !isSizeChar c) = true := by
    decide +kernel
  intro known hk part hp
  simpa using hany known hk part hp

theorem mediaTokenHasPart_size {token size : List Char} (hs : ∀ c ∈ size, isSizeChar c = true)
    {part : String} (hp : ∃ c ∈ part.toList, isSizeChar c = false) :
    mediaTokenHasPart (token++ '_'::size) part = mediaTokenHasPart token part := by
  obtain ⟨c,hc,hn⟩ := hp
  have hnone : (splitChars '_' size).any (· == part.toList) = false := by
    rw [List.any_eq_false]
    intro piece hpiece he
    rw [beq_iff_eq.mp he] at hpiece
    rw [hs c (mem_of_mem_splitChars hpiece hc)] at hn
    cases hn
  rw [mediaTokenHasPart,splitChars_append,List.any_append,hnone,Bool.or_false,mediaTokenHasPart]

/-- The known paper that a token names is named by its words. -/
theorem knownPaperSize_size (words : List Char) {sep : Char} (hsep : sep.isAlphanum = false)
    (width height : Numeral) (unit : SizeUnit) :
    knownPaperSize (words++sep::sizeText width height unit) = knownPaperSize words := by
  have htoken : normalizedMediaToken (words++sep::sizeText width height unit) =
      normalizedMediaToken words++ '_'::normalizedMediaToken (sizeText width height unit) := by
    simp [normalizedMediaToken,hsep]
  unfold knownPaperSize
  rw [htoken]
  refine List.find?_congr (fun known hk => ?_)
  rw [Bool.eq_iff_iff,List.any_eq_true,List.any_eq_true]
  refine exists_congr (fun part => and_congr_right (fun hp => ?_))
  rw [mediaTokenHasPart_size (normalized_sizeText width height unit)
    (known_not_size known hk part hp)]

/-- Taking off a prefix of the token leaves the size with a boundary before it. -/
theorem stripped_boundary {start words size rest : List Char} (hp : '_' ∉ start.dropLast)
    (h : stripStart start (words++ '_'::size) = some rest) :
    ∃ front, Boundary front ∧ rest = front++size := by
  rw [stripStart_some] at h
  rcases List.append_eq_append_iff.mp h with ⟨more,hs,hr⟩ | ⟨more,hw,hr⟩
  · rcases more with _ | ⟨c,more⟩
    · exact ⟨['_'],Or.inr ⟨[],rfl⟩,by simpa using hr.symm⟩
    · obtain ⟨rfl,hr⟩ : '_' = c ∧ size = more++rest := by simpa using hr
      have hnil : more = [] := by
        by_contra hne
        refine hp ?_
        rw [hs,List.dropLast_append_of_ne_nil (by simp),List.dropLast_cons_of_ne_nil hne]
        simp
      exact ⟨[],Or.inl rfl,by simpa [hnil] using hr.symm⟩
  · exact ⟨more++['_'],Or.inr ⟨more,rfl⟩,by simpa using hr⟩

/-- A token whose words name no known paper is read as its size. -/
theorem parsePaperChoice_sized {token : String} {front : List Char} (width height : Numeral)
    (unit : SizeUnit) (hk : knownPaperSize token.toList = none)
    (hs : sizePart token.toList = front++sizeText width height unit) (hf : Boundary front) :
    ∃ name, parsePaperChoice token = some ⟨token,name,roundMm (unit.toMm width.value),
      roundMm (unit.toMm height.value)⟩ := by
  refine ⟨paperName (roundMm (unit.toMm width.value)) (roundMm (unit.toMm height.value)),?_⟩
  unfold parsePaperChoice
  simp only [hk]
  rw [hs,parseDimensionPair_sizeText width height unit hf]
  rfl

end Tokens

section Names

variable (words : String) (width height : Numeral) (unit : SizeUnit)

theorem mediaName_toList : (mediaName words width height unit).toList =
    words.toList++ '_'::sizeText width height unit := by
  simp [mediaName]

/-- Whatever its words are, a prefix of the token is taken off before the size. -/
theorem mediaName_sizePart : ∃ front, Boundary front ∧
    sizePart (mediaName words width height unit).toList = front++sizeText width height unit := by
  rw [mediaName_toList,sizePart]
  cases hc : stripStart "Custom.".toList (words.toList++ '_'::sizeText width height unit) with
  | some rest => exact stripped_boundary (by decide) hc
  | none =>
    cases hu : stripStart "custom_".toList (words.toList++ '_'::sizeText width height unit) with
    | some rest => exact stripped_boundary (by decide) hu
    | none => exact ⟨words.toList++['_'],Or.inr ⟨_,rfl⟩,by simp⟩

/-- The paper of a token has the size that the token states, in that order. -/
def KeepsSize : Prop :=
  ∃ paper, parsePaperChoice (mediaName words width height unit) = some paper ∧
    paper.widthMm = roundMm (unit.toMm width.value) ∧
    paper.heightMm = roundMm (unit.toMm height.value)

/-- A token keeps its stated size exactly when its words name no known paper, or one of
that size. -/
theorem paper_choice_size_iff (words : String) (width height : Numeral) (unit : SizeUnit) :
    KeepsSize words width height unit ↔ ∀ known ∈ knownPaperSize words.toList,
      known.widthMm = roundMm (unit.toMm width.value) ∧
        known.heightMm = roundMm (unit.toMm height.value) := by
  have hk : knownPaperSize (mediaName words width height unit).toList =
      knownPaperSize words.toList := by
    rw [mediaName_toList]
    exact knownPaperSize_size _ (by decide) width height unit
  cases hw : knownPaperSize words.toList with
  | some known =>
    have hp : parsePaperChoice (mediaName words width height unit) =
        some ⟨mediaName words width height unit,known.name,known.widthMm,known.heightMm⟩ := by
      simp [parsePaperChoice,hk,hw]
    simp [KeepsSize,hp]
  | none =>
    obtain ⟨front,hf,hs⟩ := mediaName_sizePart words width height unit
    obtain ⟨name,hp⟩ := parsePaperChoice_sized width height unit (hk.trans hw) hs hf
    exact iff_of_true ⟨_,hp,rfl,rfl⟩ (by simp)

/-- The sides of the larger sheet that a printer calls extra A4. -/
def extraWidth : Numeral := Numeral.withDigits 235 [5] (by decide)

def extraHeight : Numeral := Numeral.withDigits 322 [3] (by decide)

theorem extra_size_lost :
    mediaName "iso_a4-extra" extraWidth extraHeight .mm = "iso_a4-extra_235.5x322.3mm" ∧
      ¬KeepsSize "iso_a4-extra" extraWidth extraHeight .mm := by
  have hname : mediaName "iso_a4-extra" extraWidth extraHeight .mm =
      "iso_a4-extra_235.5x322.3mm" := by
    decide +kernel
  have hpaper : parsePaperChoice "iso_a4-extra_235.5x322.3mm" =
      some ⟨"iso_a4-extra_235.5x322.3mm","A4",210,297⟩ := by
    decide +kernel
  refine ⟨hname,?_⟩
  rintro ⟨paper,hp,hw,-⟩
  rw [hname,hpaper] at hp
  cases hp
  exact absurd hw (by decide +kernel)

end Names

end YinShu.CupsPaper
