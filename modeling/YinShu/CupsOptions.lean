import YinShu.CupsJobNames
import YinShu.DecimalText

/-!
# The options of a printer

Each line of the options of a printer names an option and its choices, with a star at
the current one. Trays, kinds of media and resolutions are the choices of the options
that the agent knows by their names. Every choice is read under its own name, without
the star, and none of another option is.
-/

set_option autoImplicit false

namespace YinShu.CupsOptions
open YinShu.TextScan YinShu.TextPieces YinShu.PrintModel YinShu.Submission YinShu.CupsJobNames
open YinShu.DecimalText

def startsWith (start : String) (cs : List Char) : Bool := (stripStart start.toList cs).isSome

def contains (word : String) (cs : List Char) : Bool := (afterFirst word.toList cs).isSome

structure OptionChoice where
  id : String
  name : String
  deriving DecidableEq, Repr

def optionStartsWith (line : List Char) (starts : List String) : Bool :=
  starts.any (fun start => startsWith start (line.map Char.toLower))

def spaced (c : Char) : Char := if c = '_' then ' ' else c

def parseOptionChoice (choice : List Char) : Option OptionChoice :=
  if choice.isEmpty then none
  else
    let parts := (splitOnceChars '/' choice).getD (choice,choice)
    some ⟨String.ofList parts.1,String.ofList (parts.2.map spaced)⟩

def parseOptionChoices (line : List Char) : List OptionChoice :=
  match splitOnceChars ':' line with
  | none => []
  | some parts => (splitWhitespace parts.2).filterMap
      (fun choice => parseOptionChoice (choice.dropWhile (· == '*')))

def parseLpoptionsTrays (output : String) : List PrinterTrayInfo :=
  (((lines output.toList).filter
    (fun line => optionStartsWith line ["inputslot/","mediasource/"])).flatMap
      parseOptionChoices).map (fun choice => ⟨choice.id,choice.name⟩)

def parseLpoptionsMediaTypes (output : String) : List PrinterMediaTypeInfo :=
  (((lines output.toList).filter
    (fun line => optionStartsWith line ["mediatype/","mediaclass/"])).flatMap
      parseOptionChoices).map (fun choice => ⟨choice.id,choice.name⟩)

def parseU32 (digits : List Char) : Option UInt32 :=
  let value := digits.foldl (fun value c => value*10+(c.toNat-48)) 0
  if digits.isEmpty || 4294967296 ≤ value then none else some (UInt32.ofNat value)

def larger (best : Option UInt32) (value : UInt32) : Option UInt32 :=
  match best with
  | none => some value
  | some best => some (if best.toNat ≤ value.toNat then value else best)

def largest (values : List UInt32) : Option UInt32 := values.foldl larger none

def parseDpiChoice (choice : String) : Option UInt32 :=
  let lower := (toAsciiLowercase choice).toList
  largest (((beforeFirst "dpi".toList lower).splitOnP (fun c => !c.isDigit)).filterMap parseU32)

def parseLpoptionsDpi (output : String) : Option UInt32 :=
  largest ((((lines output.toList).filter
    (fun line => optionStartsWith line ["resolution/","printerresolution/"])).flatMap
      parseOptionChoices).filterMap (fun choice => parseDpiChoice choice.id))

def listTrays (host : CupsHost) (readLpoptions : String → Except PrintError String)
    (printerName : String) : Except PrintError (List PrinterTrayInfo) := do
  ensurePrinterExists host printerName
  let output ← readLpoptions printerName
  return parseLpoptionsTrays output

def listMediaTypes (host : CupsHost) (readLpoptions : String → Except PrintError String)
    (printerName : String) : Except PrintError (List PrinterMediaTypeInfo) := do
  ensurePrinterExists host printerName
  let output ← readLpoptions printerName
  return parseLpoptionsMediaTypes output

/-- A choice of an option, which may have a text of its own. -/
structure Choice where
  current : Bool
  id : List Char
  label : Option (List Char)
  id_nonempty : id ≠ []
  id_plain : ∀ c ∈ id, isWhitespace c = false
  id_slash : '/' ∉ id
  id_star : id.head? ≠ some '*'
  label_plain : ∀ c ∈ label.getD [], isWhitespace c = false

structure PpdOption where
  key : List Char
  label : List Char
  choices : List Choice
  key_slash : '/' ∉ key
  key_plain : ':' ∉ key ∧ '\n' ∉ key
  label_plain : ':' ∉ label ∧ '\n' ∉ label

def labelText : Option (List Char) → List Char
  | none => []
  | some label => '/'::label

def Choice.text (choice : Choice) : List Char :=
  (if choice.current then ['*'] else [])++(choice.id++labelText choice.label)

def PpdOption.line (option : PpdOption) : List Char :=
  (option.key++ '/' :: option.label)++ ':' ::
    option.choices.flatMap (fun choice => ' '::choice.text)

def optionsText (options : List PpdOption) : String :=
  String.ofList (options.flatMap (fun option => option.line++['\n']))

/-- What the agent takes over of a choice. -/
def Choice.read (choice : Choice) : OptionChoice :=
  ⟨String.ofList choice.id,String.ofList ((choice.label.getD choice.id).map spaced)⟩

/-- The choices of the options of the given names, whose case does not matter. -/
def offered (names : List String) (options : List PpdOption) : List OptionChoice :=
  (options.filter (fun option => names.any
    (fun name => name.toList == option.key.map Char.toLower))).flatMap
      (fun option => option.choices.map Choice.read)

/-- A resolution, with two numbers where the directions differ. -/
structure Resolution where
  horizontal : UInt32
  vertical : Option UInt32

def Resolution.values (resolution : Resolution) : List UInt32 :=
  resolution.horizontal::resolution.vertical.toList

def Resolution.text (resolution : Resolution) : String := String.ofList
  (Nat.toDigits 10 resolution.horizontal.toNat++
    resolution.vertical.elim [] (fun v => 'x'::Nat.toDigits 10 v.toNat)++['d','p','i'])

section Reading

variable {word front : List Char}

theorem toLower_slash {c : Char} (h : c.toLower = '/') : c = '/' := by
  unfold Char.toLower at h
  split at h
  · case isTrue hu =>
    -- a letter stays one
    have hv := congrArg (fun c : Char => c.val.toNat) h
    have hlow := UInt32.le_iff_toNat_le.mp hu.1
    have hhigh := UInt32.le_iff_toNat_le.mp hu.2
    simp at hv hlow hhigh
    omega
  · exact h

theorem slash_not_lower {cs : List Char} (h : '/' ∉ cs) : '/' ∉ cs.map Char.toLower := by
  intro hm
  obtain ⟨c,hc,hl⟩ := List.mem_map.mp hm
  rw [toLower_slash hl] at hc
  exact h hc

theorem splitOnceChars_none {c : Char} (h : c ∉ word) : splitOnceChars c word = none := by
  cases hs : splitOnceChars c word with
  | none => rfl
  | some parts => exact absurd (splitOnceChars_mem hs) h

theorem splitOnP_words (word : List Char) (hw : ∀ c ∈ word, isWhitespace c = false)
    (words : List (List Char)) (h : ∀ w ∈ words, ∀ c ∈ w, isWhitespace c = false) :
    (word++words.flatMap (fun w => ' '::w)).splitOnP isWhitespace = word::words := by
  induction words generalizing word with
  | nil => rw [List.flatMap_nil,List.append_nil,List.splitOnP_eq_singleton hw]
  | cons w words ih =>
    rw [List.flatMap_cons,List.cons_append,
      List.splitOnP_append_cons_of_forall_mem hw ' ' (by decide),
      ih w (h w List.mem_cons_self) (fun v hv => h v (List.mem_cons_of_mem _ hv))]

theorem splitWhitespace_words (words : List (List Char))
    (h : ∀ w ∈ words, w ≠ [] ∧ ∀ c ∈ w, isWhitespace c = false) :
    splitWhitespace (words.flatMap (fun w => ' '::w)) = words := by
  have hsplit := splitOnP_words [] (fun c hc => (nomatch hc)) words
    (fun w hw => (h w hw).2)
  rw [List.nil_append] at hsplit
  rw [splitWhitespace,hsplit,List.filter_cons_of_neg (by simp),List.filter_eq_self]
  intro w hw
  simpa using (h w hw).1

/-- Behind a word without a slash, the slash shows where the word ends. -/
theorem prefix_slash (hw : '/' ∉ word) (hf : '/' ∉ front) (back : List Char) :
    word++['/'] <+: front++ '/' :: back ↔ word = front := by
  constructor
  · rintro ⟨rest,hrest⟩
    rw [List.append_assoc,List.singleton_append] at hrest
    have hs := splitOnceChars_append hw rest
    rw [hrest,splitOnceChars_append hf] at hs
    exact (Prod.mk.inj (Option.some.inj hs)).1.symm
  · rintro rfl
    exact ⟨back,by simp⟩

end Reading

section Options

variable (choice : Choice) (option : PpdOption)

theorem Choice.text_nonempty : choice.text ≠ [] := by
  simp [Choice.text,choice.id_nonempty]

theorem labelText_plain : ∀ c ∈ labelText choice.label, isWhitespace c = false := by
  have hplain := choice.label_plain
  cases hl : choice.label with
  | none => simp [labelText]
  | some label =>
    rw [hl] at hplain
    intro c hc
    rcases List.mem_cons.mp hc with rfl | hc
    · decide
    · exact hplain c hc

theorem Choice.text_plain : ∀ c ∈ choice.text, isWhitespace c = false := by
  intro c hc
  rcases List.mem_append.mp hc with hc | hc
  · split at hc
    · rw [List.mem_singleton.mp hc]
      decide
    · cases hc
  · rcases List.mem_append.mp hc with hc | hc
    · exact choice.id_plain c hc
    · exact labelText_plain choice c hc

theorem Choice.text_unmarked :
    choice.text.dropWhile (· == '*') = choice.id++labelText choice.label := by
  have hstar := choice.id_star
  cases hid : choice.id with
  | nil => exact absurd hid choice.id_nonempty
  | cons c cs =>
    rw [hid,List.head?_cons,ne_eq,Option.some.injEq] at hstar
    rw [Choice.text,hid]
    split <;> simp [hstar]

theorem parseOptionChoice_read :
    parseOptionChoice (choice.text.dropWhile (· == '*')) = some choice.read := by
  have hne : (choice.id++labelText choice.label).isEmpty = false := by
    simp [choice.id_nonempty]
  rw [choice.text_unmarked,parseOptionChoice,hne,Choice.read]
  cases choice.label with
  | none => simp [labelText,splitOnceChars_none choice.id_slash]
  | some label => simp [labelText,splitOnceChars_append choice.id_slash]

theorem parseOptionChoices_read :
    parseOptionChoices option.line = option.choices.map Choice.read := by
  have hcolon : ':' ∉ option.key++ '/' :: option.label := by
    rw [List.mem_append,List.mem_cons,not_or,not_or]
    exact ⟨option.key_plain.1,by decide,option.label_plain.1⟩
  have hwords := splitWhitespace_words (option.choices.map Choice.text) (fun w hw => by
    obtain ⟨choice,-,rfl⟩ := List.mem_map.mp hw
    exact ⟨choice.text_nonempty,choice.text_plain⟩)
  rw [List.flatMap_map] at hwords
  rw [parseOptionChoices,PpdOption.line,splitOnceChars_append hcolon]
  simp only [hwords,List.filterMap_map]
  rw [← List.filterMap_eq_map]
  exact List.filterMap_congr (fun choice _ => parseOptionChoice_read choice)

theorem choices_chars {c : Char}
    (hc : c ∈ option.choices.flatMap (fun choice => ' '::choice.text)) :
    c = ' ' ∨ isWhitespace c = false := by
  obtain ⟨choice,-,hc⟩ := List.mem_flatMap.mp hc
  rcases List.mem_cons.mp hc with hc | hc
  · exact .inl hc
  · exact .inr (choice.text_plain c hc)

theorem PpdOption.line_newline : '\n' ∉ option.line := by
  have hchoices : '\n' ∉ option.choices.flatMap (fun choice => ' '::choice.text) :=
    fun hm => absurd (choices_chars option hm) (by decide)
  simp only [PpdOption.line,List.mem_append,List.mem_cons,not_or]
  exact ⟨⟨option.key_plain.2,by decide,option.label_plain.2⟩,by decide,hchoices⟩

theorem PpdOption.line_end : option.line.getLast? ≠ some '\r' := by
  rw [PpdOption.line,List.getLast?_append,List.getLast?_cons,Option.some_or]
  intro hl
  have hm : '\r' ∈ ':'::option.choices.flatMap (fun choice => ' '::choice.text) := by
    refine List.mem_of_getLast? ?_
    rw [List.getLast?_cons,hl]
  rcases List.mem_cons.mp hm with hm | hm
  · cases hm
  · exact absurd (choices_chars option hm) (by decide)

theorem optionStartsWith_read {names : List String} (hnames : ∀ name ∈ names, '/' ∉ name.toList) :
    optionStartsWith option.line (names.map (· ++ "/")) =
      names.any (fun name => name.toList == option.key.map Char.toLower) := by
  have hline : option.line.map Char.toLower = option.key.map Char.toLower++ '/' ::
      (option.label++ ':' :: option.choices.flatMap (fun choice => ' '::choice.text)).map
        Char.toLower := by
    rw [PpdOption.line,List.append_assoc,List.map_append,List.cons_append,List.map_cons]
    rfl
  rw [Bool.eq_iff_iff,optionStartsWith,List.any_map,List.any_eq_true,List.any_eq_true]
  refine exists_congr (fun name => and_congr_right (fun hn => ?_))
  rw [Function.comp_apply,startsWith,← Option.ne_none_iff_isSome,ne_eq,stripStart_none,not_not,
    beq_iff_eq,hline,String.toList_append]
  exact prefix_slash (hnames name hn) (slash_not_lower option.key_slash) _

theorem optionsText_lines (options : List PpdOption) :
    lines (optionsText options).toList = options.map PpdOption.line := by
  rw [optionsText,String.toList_ofList,lines_blocks PpdOption.line PpdOption.line_newline]
  exact List.map_congr_left (fun option _ => if_neg option.line_end)

/-- The choices under some names, out of the whole text. -/
theorem options_read (names : List String) (hnames : ∀ name ∈ names, '/' ∉ name.toList)
    (options : List PpdOption) :
    ((lines (optionsText options).toList).filter
      (fun line => optionStartsWith line (names.map (· ++ "/")))).flatMap parseOptionChoices =
        offered names options := by
  rw [optionsText_lines,List.filter_map,List.flatMap_map,offered]
  congr 1
  · exact funext parseOptionChoices_read
  · exact List.filter_congr (fun option _ => optionStartsWith_read option hnames)

end Options

section Largest

variable {m : UInt32}

theorem foldl_larger (b : UInt32) (values : List UInt32) :
    values.foldl larger (some b) = some m ↔
      (m = b ∨ m ∈ values) ∧ b.toNat ≤ m.toNat ∧ ∀ v ∈ values, v.toNat ≤ m.toNat := by
  induction values generalizing b with
  | nil =>
    constructor
    · intro h
      rw [← Option.some.inj h]
      simp
    · rintro ⟨rfl | hm,-⟩
      · rfl
      · cases hm
  | cons v values ih =>
    rw [List.foldl_cons,larger,ih]
    simp only [List.mem_cons,forall_eq_or_imp]
    have heq : ∀ {x y : UInt32}, x.toNat = y.toNat → x = y := UInt32.toNat_inj.mp
    split
    · case isTrue hle => grind
    · case isFalse hlt => grind

theorem largest_some {values : List UInt32} :
    largest values = some m ↔ m ∈ values ∧ ∀ v ∈ values, v.toNat ≤ m.toNat := by
  cases values with
  | nil => simp [largest]
  | cons v values =>
    rw [largest,List.foldl_cons,larger,foldl_larger]
    simp

theorem foldl_larger_isSome (b : UInt32) (values : List UInt32) :
    (values.foldl larger (some b)).isSome = true := by
  induction values generalizing b with
  | nil => rfl
  | cons v values ih =>
    rw [List.foldl_cons,larger]
    exact ih _

theorem exists_largest {values : List UInt32} {v : UInt32} (h : v ∈ values) :
    ∃ m, largest values = some m ∧ v.toNat ≤ m.toNat := by
  cases values with
  | nil => cases h
  | cons b values =>
    obtain ⟨m,hm⟩ := Option.isSome_iff_exists.mp (foldl_larger_isSome b values)
    have hlargest : largest (b::values) = some m := hm
    exact ⟨m,hlargest,(largest_some.mp hlargest).2 v h⟩

/-- The largest of the largest ones of some lists is the largest of all. -/
theorem largest_filterMap {α : Type} (values : α → List UInt32) (as : List α) :
    largest (as.filterMap (fun a => largest (values a))) = largest (as.flatMap values) := by
  ext m
  rw [largest_some,largest_some]
  simp only [List.mem_filterMap,List.mem_flatMap,forall_exists_index,and_imp]
  constructor
  · rintro ⟨⟨a,ha,hm⟩,hall⟩
    refine ⟨⟨a,ha,(largest_some.mp hm).1⟩,fun v b hb hv => ?_⟩
    obtain ⟨w,hw,hle⟩ := exists_largest hv
    exact Nat.le_trans hle (hall w b hb hw)
  · rintro ⟨⟨a,ha,hm⟩,hall⟩
    refine ⟨⟨a,ha,?_⟩,fun v b hb hv => hall v b hb (largest_some.mp hv).1⟩
    exact largest_some.mpr ⟨hm,fun v hv => hall v a ha hv⟩

end Largest

section Resolutions

variable (n : UInt32) (resolution : Resolution)

theorem parseU32_digits : parseU32 (Nat.toDigits 10 n.toNat) = some n := by
  have hfold : (Nat.toDigits 10 n.toNat).foldl (fun value c => value*10+(c.toNat-48)) 0 =
      n.toNat := by
    have hstep : (fun (value : ℕ) (c : Char) => value*10+(c.toNat-48)) =
        fun value c => 10*value+(c.toNat - '0'.toNat) := by
      funext value c
      rw [Nat.mul_comm]
      rfl
    rw [hstep,← Nat.ofDigitChars_eq_foldl,Nat.ofDigitChars_toDigits (by decide) (by decide)]
  have hlt := n.toNat_lt
  rw [parseU32]
  simp only [hfold]
  rw [if_neg]
  · rw [UInt32.ofNat_toNat]
  · simp [Nat.toDigits_ne_nil]
    omega

theorem digits_lower : (Nat.toDigits 10 n.toNat).map Char.toLower = Nat.toDigits 10 n.toNat := by
  rw [List.map_congr_left (fun c hc => toLower_of_isDigit (toDigits_isDigit n.toNat c hc)),
    List.map_id']

theorem not_mem_digits {c : Char} (hc : c.isDigit = false) : c ∉ Nat.toDigits 10 n.toNat := by
  intro hm
  rw [toDigits_isDigit n.toNat c hm] at hc
  cases hc

theorem digits_splitOnP : ∀ c ∈ Nat.toDigits 10 n.toNat, (!c.isDigit) = false := by
  intro c hc
  rw [toDigits_isDigit n.toNat c hc]
  rfl

theorem parseDpiChoice_unit {front : List Char} (hlower : front.map Char.toLower = front)
    (hd : 'd' ∉ front) : parseDpiChoice (String.ofList (front++['d','p','i'])) =
      largest ((front.splitOnP (fun c => !c.isDigit)).filterMap parseU32) := by
  have hword : "dpi".toList = ['d','p','i'] := by decide
  have hunit : ['d','p','i'].map Char.toLower = ['d','p','i'] := by decide
  have hend : beforeFirst ['d','p','i'] ['d','p','i'] = [] := by decide
  rw [parseDpiChoice,toAsciiLowercase]
  simp only [String.toList_ofList,List.map_append,hlower,hunit,hword]
  rw [beforeFirst_of_first hd,hend,List.append_nil]

/-- The numbers before the unit are read, and the largest is taken. -/
theorem parseDpiChoice_read : parseDpiChoice resolution.text = largest resolution.values := by
  obtain ⟨h,v⟩ := resolution
  have hd := not_mem_digits h (c := 'd') (by decide)
  cases v with
  | none =>
    rw [Resolution.text,Option.elim_none,List.append_nil,parseDpiChoice_unit (digits_lower h) hd,
      List.splitOnP_eq_singleton (digits_splitOnP h)]
    simp [parseU32_digits,Resolution.values]
  | some v =>
    have hlower : (Nat.toDigits 10 h.toNat++ 'x' :: Nat.toDigits 10 v.toNat).map Char.toLower =
        Nat.toDigits 10 h.toNat++ 'x' :: Nat.toDigits 10 v.toNat := by
      rw [List.map_append,List.map_cons,digits_lower,digits_lower]
      rfl
    have hd' : 'd' ∉ Nat.toDigits 10 h.toNat++ 'x' :: Nat.toDigits 10 v.toNat := by
      rw [List.mem_append,List.mem_cons,not_or,not_or]
      exact ⟨hd,by decide,not_mem_digits v (by decide)⟩
    rw [Resolution.text,Option.elim_some,parseDpiChoice_unit hlower hd',
      List.splitOnP_append_cons_of_forall_mem (digits_splitOnP h) 'x' (by decide),
      List.splitOnP_eq_singleton (digits_splitOnP v)]
    simp [parseU32_digits,Resolution.values]

end Resolutions

/-- The trays and the media types of a printer that is there are the choices of the options
with their names, in their order, each under its own name and text without the star; and
its resolution is the largest number in the choices of its resolutions. -/
theorem options_exact (options : List PpdOption) (host : CupsHost)
    (readLpoptions : String → Except PrintError String) (printerName : String)
    (hexists : ensurePrinterExists host printerName = .ok ())
    (hread : readLpoptions printerName = .ok (optionsText options)) :
    listTrays host readLpoptions printerName =
        .ok ((offered ["inputslot","mediasource"] options).map
          (fun choice => ⟨choice.id,choice.name⟩)) ∧
      listMediaTypes host readLpoptions printerName =
        .ok ((offered ["mediatype","mediaclass"] options).map
          (fun choice => ⟨choice.id,choice.name⟩)) ∧
      ∀ (resolutions : List Resolution) (m : UInt32),
        (offered ["resolution","printerresolution"] options).map OptionChoice.id =
          resolutions.map Resolution.text →
        (parseLpoptionsDpi (optionsText options) = some m ↔
          m ∈ resolutions.flatMap Resolution.values ∧
            ∀ v ∈ resolutions.flatMap Resolution.values, v.toNat ≤ m.toNat) := by
  have htrays := options_read ["inputslot","mediasource"] (by decide) options
  have hmedia := options_read ["mediatype","mediaclass"] (by decide) options
  have hdpi := options_read ["resolution","printerresolution"] (by decide) options
  refine ⟨?_,?_,fun resolutions m hres => ?_⟩
  · rw [listTrays,hexists,hread,← htrays]
    rfl
  · rw [listMediaTypes,hexists,hread,← hmedia]
    rfl
  · have hlargest : parseLpoptionsDpi (optionsText options) =
        largest ((offered ["resolution","printerresolution"] options).filterMap
          (fun choice => parseDpiChoice choice.id)) := by
      rw [← hdpi]
      rfl
    have hids : (offered ["resolution","printerresolution"] options).filterMap
        (fun choice => parseDpiChoice choice.id) =
          (resolutions.map Resolution.text).filterMap parseDpiChoice := by
      rw [← hres,List.filterMap_map]
      rfl
    rw [hlargest,hids,List.filterMap_map,← largest_some,← largest_filterMap]
    simp only [Function.comp_def,parseDpiChoice_read]

def autoTray : Choice where
  current := true
  id := ['A','u','t','o']
  label := none
  id_nonempty := by decide
  id_plain := by simp [isWhitespace]
  id_slash := by decide
  id_star := by decide
  label_plain := by simp [isWhitespace]

def manualTray : Choice where
  current := false
  id := ['M','1']
  label := some ['B','y','_','h','a','n','d']
  id_nonempty := by decide
  id_plain := by simp [isWhitespace]
  id_slash := by decide
  id_star := by decide
  label_plain := by simp [isWhitespace]

def inputSlot : PpdOption where
  key := ['I','n','p','u','t','S','l','o','t']
  label := ['S','o','u','r','c','e']
  choices := [autoTray,manualTray]
  key_slash := by decide
  key_plain := by decide
  label_plain := by decide

def finest : Resolution := ⟨300,some 600⟩

def finestChoice : Choice where
  current := false
  id := ['3','0','0','x','6','0','0','d','p','i']
  label := none
  id_nonempty := by decide
  id_plain := by simp [isWhitespace]
  id_slash := by decide
  id_star := by decide
  label_plain := by simp

def outputResolution : PpdOption where
  key := ['R','e','s','o','l','u','t','i','o','n']
  label := ['O','u','t','p','u','t']
  choices := [finestChoice]
  key_slash := by decide
  key_plain := by decide
  label_plain := by decide

def labelHost : CupsHost where
  rawBackendName := "linux-cups-raw"
  listPrinters := .ok [⟨"label",true,none,none,none,none,none,.available⟩]
  before := .available
  uuid := ""
  create := none
  writeAll := none
  flush := none
  lp := .error ""
  after := .available
  cancel _ := .ok ()
  submittedAt := ""

theorem options_exact_label :
    listTrays labelHost (fun _ => .ok (optionsText [inputSlot,outputResolution])) "label" =
        .ok [⟨"Auto","Auto"⟩,⟨"M1","By hand"⟩] ∧
      parseLpoptionsDpi (optionsText [inputSlot,outputResolution]) = some 600 := by
  have hexists : ensurePrinterExists labelHost "label" = .ok () := by decide
  have hall := options_exact [inputSlot,outputResolution] labelHost
    (fun _ => .ok (optionsText [inputSlot,outputResolution])) "label" hexists rfl
  have hres : (offered ["resolution","printerresolution"] [inputSlot,outputResolution]).map
      OptionChoice.id = [finest].map Resolution.text := rfl
  refine ⟨hall.1,(hall.2.2 [finest] 600 hres).mpr ?_⟩
  simp [finest,Resolution.values]

end YinShu.CupsOptions
