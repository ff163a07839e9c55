import YinShu.Submission
import YinShu.TextPieces

/-!
# Attributes of a printer

The state of a printer is read from one line of attributes. The reader looks
for the text `key=` anywhere in the line and takes what follows it: up to the
next quote, or up to the next attribute whose name starts with `printer-`. It
reads a key rightly when the key's own attribute is the first place where that
text stands and its value ends where the reader stops.
-/

set_option autoImplicit false

namespace YinShu.CupsAttributes
open YinShu.TextScan YinShu.TextPieces YinShu.PrintModel YinShu.Submission

def needle (key : List Char) : List Char := key++['=']

/-- Where the text after a key ends when it is not quoted. -/
def readFront (rest : List Char) : List Char :=
  match afterFirst " printer-".toList rest with
  | some _ => beforeFirst " printer-".toList rest
  | none => rest.takeWhile (· != '\n')

def readValue (rest : List Char) : List Char :=
  match rest with
  | '\''::quoted => quoted.takeWhile (· != '\'')
  | _ => trimChars (readFront rest)

def attributeChars (key output : List Char) : Option (List Char) :=
  (afterFirst (needle key) output).map (fun rest => readValue (beforeFirst (needle key) rest))

def attributeValue (output key : String) : Option String :=
  (attributeChars key.toList output.toList).map String.ofList

def reasonsBlockSubmission (reasons : String) : Bool :=
  (splitChars ',' reasons.toList).any (fun reason =>
    ["offline","offline-report","paused"].contains (String.ofList (trimChars reason)))

def parseCupsPrinterAvailability (output : String) : CupsPrinterAvailability :=
  let acceptingJobs := attributeValue output "printer-is-accepting-jobs"
  let state := attributeValue output "printer-state"
  let reasons := (attributeValue output "printer-state-reasons").getD ""
  if acceptingJobs == some "false" || state == some "5" || reasonsBlockSubmission reasons then
    .unavailable
  else .available

def printerAvailabilityFromLpoptions (output : String) : PrinterAvailability :=
  let acceptingJobs := attributeValue output "printer-is-accepting-jobs"
  let state := attributeValue output "printer-state"
  let reasons := (attributeValue output "printer-state-reasons").getD ""
  if acceptingJobs.isNone && state.isNone && reasons.isEmpty then .unknown
  else match parseCupsPrinterAvailability output with
    | .available => .available
    | .unavailable => .unavailable

/-- An attribute as the print system writes it on its line. -/
structure Attribute where
  name : List Char
  value : List Char
  name_plain : ∀ c ∈ name, isWhitespace c = false ∧ c ≠ '='
  value_plain : ∀ c ∈ value, c ≠ '\'' ∧ c ≠ '\n'

/-- An attribute that is given as two texts. -/
def Attribute.ofTexts (name value : String)
    (hn : name.toList.all (fun c => !isWhitespace c && c != '=') = true)
    (hv : value.toList.all (fun c => c != '\'' && c != '\n') = true) : Attribute where
  name := name.toList
  value := value.toList
  name_plain := by simpa using hn
  value_plain := by simpa using hv

def Attribute.valueText (a : Attribute) : List Char :=
  if ' ' ∈ a.value then '\''::(a.value++['\'']) else a.value

def Attribute.text (a : Attribute) : List Char := a.name++ '='::a.valueText

/-- The command ends its line with a newline; the tests leave it out. -/
inductive LineEnd where
  | none
  | newline
  deriving DecidableEq, Repr

def LineEnd.text : LineEnd → List Char
  | .none => []
  | .newline => ['\n']

def following (e : LineEnd) : List Attribute → List Char
  | [] => e.text
  | a::rest => ' '::(a.text++following e rest)

/-- The attributes on one line, with single spaces between them. -/
def render (e : LineEnd) : List Attribute → List Char
  | [] => e.text
  | a::rest => a.text++following e rest

def lookup (key : List Char) (attrs : List Attribute) : Option (List Char) :=
  (attrs.find? (fun a => a.name == key)).map Attribute.value

def statusKeys : List String :=
  ["printer-is-accepting-jobs","printer-state","printer-state-reasons"]

/-- What the attributes say about the printer. -/
def Stopped (attrs : List Attribute) : Prop :=
  lookup "printer-is-accepting-jobs".toList attrs = some "false".toList ∨
  lookup "printer-state".toList attrs = some "5".toList ∨
  ∃ reasons ∈ lookup "printer-state-reasons".toList attrs, ∃ reason ∈ splitChars ',' reasons,
    String.ofList (trimChars reason) ∈ ["offline","offline-report","paused"]

def Reads (e : LineEnd) (key : List Char) (attrs : List Attribute) : Prop :=
  attributeChars key (render e attrs) = lookup key attrs

def ReadsRight (e : LineEnd) (attrs : List Attribute) : Prop :=
  (∀ key ∈ statusKeys, attributeValue (String.ofList (render e attrs)) key =
    (lookup key.toList attrs).map String.ofList) ∧
  (parseCupsPrinterAvailability (String.ofList (render e attrs)) = .unavailable ↔ Stopped attrs)

def Mentions (key : List Char) (a : Attribute) : Prop := needle key <:+: a.text

/-- The value of a key does not hold the text of the key, and ends where the reader stops. -/
def ValueClean (key : List Char) (a : Attribute) (rest : List Attribute) : Prop :=
  ¬needle key <:+: a.value ∧ (' ' ∈ a.value ∨ (trimChars a.value = a.value ∧
    ∀ b ∈ rest.head?, "printer-".toList <+: b.name))

/-- No attribute before the key's own one mentions the key, and its value is clean. -/
def Clean (key : List Char) : List Attribute → Prop
  | [] => True
  | a::rest => if a.name = key then ValueClean key a rest
      else ¬Mentions key a ∧ Clean key rest

instance (key : List Char) (a : Attribute) (rest : List Attribute) :
    Decidable (ValueClean key a rest) :=
  inferInstanceAs (Decidable (_ ∧ (_ ∨ (_ ∧ _))))

instance decidableClean (key : List Char) : (attrs : List Attribute) → Decidable (Clean key attrs)
  | [] => isTrue trivial
  | a::rest =>
    have := decidableClean key rest
    inferInstanceAs (Decidable (if a.name = key then ValueClean key a rest
      else ¬needle key <:+: a.text ∧ Clean key rest))

/-- Another attribute mentions the key before the key's own attribute. -/
def Shadowed (key : List Char) (attrs : List Attribute) : Prop :=
  ∃ front a back, attrs = front++a::back ∧ a.name ≠ key ∧ Mentions key a ∧
    ∃ b ∈ back, b.name = key

/-- The keys that are read start with the word that ends a value. -/
structure StatusKey (key : List Char) : Prop where
  starts : "printer-".toList <+: key
  plain : ∀ c ∈ key, c ∉ [' ','=','\'','\n']

theorem statusKeys_plain : ∀ key ∈ statusKeys, StatusKey key.toList := by
  have hkeys : ∀ key ∈ statusKeys, "printer-".toList <+: key.toList ∧
      key.toList.all (fun c => !([' ','=','\'','\n'].contains c)) = true := by
    decide +kernel
  refine fun key hk => ⟨(hkeys key hk).1,fun c hc => ?_⟩
  simpa using List.all_eq_true.mp (hkeys key hk).2 c hc

section Fronts

variable {v : List Char}

theorem printerWord : " printer-".toList = ' '::"printer-".toList := rfl

/-- The word that ends a value is not in a text without spaces. -/
theorem printerWord_absent (hs : ' ' ∉ v) : ¬" printer-".toList <:+: v :=
  fun hi => hs (hi.subset (by decide))

theorem readFront_plain (hs : ' ' ∉ v) (hv : ∀ c ∈ v, c ≠ '\n') : readFront v = v := by
  rw [readFront,afterFirst_none.mpr (printerWord_absent hs)]
  exact List.takeWhile_eq_self_iff.mpr (by simpa using hv)

theorem readFront_newline (hs : ' ' ∉ v) (hv : ∀ c ∈ v, c ≠ '\n') :
    readFront (v++['\n']) = v := by
  have hspace : ' ' ∉ v++['\n'] := by simpa using hs
  rw [readFront,afterFirst_none.mpr (printerWord_absent hspace)]
  exact (List.takeWhile_append_of_pos (by simpa using hv)).trans (by simp)

theorem readFront_printer (hs : ' ' ∉ v) {more : List Char} (hm : "printer-".toList <+: more) :
    readFront (v++ ' '::more) = v := by
  obtain ⟨tail,rfl⟩ := hm
  have hbefore : beforeFirst (' '::"printer-".toList) (v++ ' '::("printer-".toList++tail)) =
      v := by
    rw [beforeFirst_of_first hs,← List.cons_append,beforeFirst_start (by simp),List.append_nil]
  have hfound : afterFirst (' '::"printer-".toList) (v++ ' '::("printer-".toList++tail)) ≠
      none := by
    rw [ne_eq,afterFirst_none,not_not,← List.cons_append]
    exact List.infix_append' _ _ _
  rw [readFront,printerWord]
  split
  · exact hbefore
  · rename_i hn
    exact absurd hn hfound

/-- Without that word the reader goes on into the next attribute. -/
theorem readFront_other (hs : ' ' ∉ v) (hv : ∀ c ∈ v, c ≠ '\n') {c : Char} {more : List Char}
    (hc : isWhitespace c = false) (hm : ¬"printer-".toList <+: c::more) :
    ∃ w, readFront (v++ ' '::c::more) = v++ ' '::c::w := by
  have hspace : c ≠ ' ' := by
    rintro rfl
    cases hc
  have hline : c ≠ '\n' := by
    rintro rfl
    cases hc
  rw [readFront,printerWord]
  split
  · have hfirst : ¬ ' '::"printer-".toList <+: ' '::c::more :=
      fun hp => hm (List.cons_prefix_cons.mp hp).2
    have hsecond : ¬ ' '::"printer-".toList <+: c::more :=
      fun hp => hspace (List.cons_prefix_cons.mp hp).1.symm
    exact ⟨_,by rw [beforeFirst_of_first hs,beforeFirst_cons hfirst,beforeFirst_cons hsecond]⟩
  · refine ⟨more.takeWhile (· != '\n'),?_⟩
    rw [List.takeWhile_append_of_pos (by simpa using hv)]
    simp [hline]

/-- A text that goes on after a space is never trimmed to what stands before it. -/
theorem trimChars_ne {c : Char} {w : List Char} (hc : isWhitespace c = false) :
    trimChars (v++ ' '::c::w) ≠ v := by
  intro h
  have hcount := countP_trimChars (v++ ' '::c::w)
  rw [h,List.countP_append,List.countP_cons_of_neg (by decide),
    List.countP_cons_of_pos (by simp [hc])] at hcount
  omega

end Fronts

section Values

variable {e : LineEnd} {key : List Char} {a b : Attribute} {rest : List Attribute}

theorem needle_ne_nil (key : List Char) : needle key ≠ [] := by simp [needle]

theorem not_mem_needle (hk : StatusKey key) {c : Char} (hc : c ∈ [' ','\'','\n']) :
    c ∉ needle key := by
  intro hm
  rcases List.mem_append.mp hm with hm | hm
  · refine hk.plain c hm ?_
    simp only [List.mem_cons] at hc ⊢
    exact hc.imp_right Or.inr
  · rw [List.mem_singleton.mp hm] at hc
    exact absurd hc (by decide)

theorem needle_not_quote (hk : StatusKey key) (cs : List Char) :
    ¬needle key <+: '\''::cs := by
  intro hp
  have hquote : '\'' ∉ needle key := not_mem_needle hk (by decide)
  have hnil : needle key <+: [] := (prefix_separated hquote).mp (by simpa using hp)
  exact needle_ne_nil key (List.prefix_nil.mp hnil)

theorem equals_not_mem_name (a : Attribute) : '=' ∉ a.name := fun h => (a.name_plain _ h).2 rfl

/-- The text of a key begins an attribute only when it is the key's own. -/
theorem needle_begins (hk : StatusKey key) {more : List Char} :
    needle key <+: a.name++ '='::more ↔ a.name = key := by
  have hkey : '=' ∉ key := fun h => hk.plain _ h (by decide)
  constructor
  · rintro ⟨tail,ht⟩
    have hsplit := splitOnceChars_append (equals_not_mem_name a) more
    rw [← ht,needle,List.append_assoc,List.singleton_append,splitOnceChars_append hkey] at hsplit
    exact (Prod.mk.inj (Option.some.inj hsplit)).1.symm
  · rintro rfl
    exact ⟨more,by simp [needle]⟩

theorem readValue_bare {piece : List Char} (h : ∀ c ∈ piece.head?, c ≠ '\'') :
    readValue piece = trimChars (readFront piece) := by
  unfold readValue
  split
  · exact absurd rfl (h '\'' rfl)
  · rfl

/-- A value that holds the text of its key is read too short. -/
theorem value_cut (hk : StatusKey key) (hm : needle key <:+: a.value) :
    readValue (beforeFirst (needle key) (a.valueText++following e rest)) ≠ a.value := by
  intro hr
  unfold Attribute.valueText at hr
  split_ifs at hr with hs
  · have hquote := needle_not_quote hk (a.value++ '\''::following e rest)
    obtain ⟨more,hne,hv⟩ := beforeFirst_shorter (needle_ne_nil key) hm ('\''::following e rest)
    rw [List.cons_append,List.append_assoc,List.singleton_append,beforeFirst_cons hquote] at hr
    have hplain : ∀ c ∈ beforeFirst (needle key) (a.value++ '\''::following e rest), c ≠ '\'' := by
      intro c hc
      refine (a.value_plain c ?_).1
      rw [hv]
      exact List.mem_append_left _ hc
    rw [readValue,List.takeWhile_eq_self_iff.mpr (by simpa using hplain)] at hr
    have hlength := congrArg List.length (hr.trans hv)
    simp only [List.length_append] at hlength
    exact hne (List.eq_nil_of_length_eq_zero (by omega))
  · obtain ⟨more,hne,hv⟩ := beforeFirst_shorter (needle_ne_nil key) hm (following e rest)
    generalize beforeFirst (needle key) (a.value++following e rest) = piece at hr hv
    have hmem : ∀ c ∈ piece, c ∈ a.value := by
      intro c hc
      rw [hv]
      exact List.mem_append_left _ hc
    rw [readValue_bare (fun c hc => (a.value_plain c (hmem c (List.mem_of_head? hc))).1),
      readFront_plain (fun h => hs (hmem _ h)) (fun c hc => (a.value_plain c (hmem c hc)).2)] at hr
    have hlength := congrArg List.length hv
    have hshort := length_trimChars_le piece
    rw [hr] at hshort
    simp only [List.length_append] at hlength
    exact hne (List.eq_nil_of_length_eq_zero (by omega))

theorem value_quoted (hk : StatusKey key) (hm : ¬needle key <:+: a.value) (hs : ' ' ∈ a.value) :
    readValue (beforeFirst (needle key) (a.valueText++following e rest)) = a.value := by
  have htext : a.valueText++following e rest = '\''::(a.value++ '\''::following e rest) := by
    simp [Attribute.valueText,hs]
  have hquote := needle_not_quote hk (a.value++ '\''::following e rest)
  rw [htext,beforeFirst_cons hquote,beforeFirst_skip (not_mem_needle hk (by decide)) hm,readValue,
    List.takeWhile_append_of_pos (fun c hc => by simpa using (a.value_plain c hc).1)]
  simp

/-- The next attribute up to the text of the key. -/
theorem next_piece (hk : StatusKey key) (hb : b.name ≠ key) (more : List Attribute) :
    ∃ c q, beforeFirst (needle key) (render e (b::more)) = c::q ∧ isWhitespace c = false ∧
      ("printer-".toList <+: c::q ↔ "printer-".toList <+: b.name) := by
  have hrender : render e (b::more) = b.name++ '='::(b.valueText++following e more) := by
    simp [render,Attribute.text]
  have hfirst : ¬needle key <+: render e (b::more) := by
    rw [hrender,needle_begins hk]
    exact hb
  obtain ⟨c,t,hct,hc⟩ : ∃ c t, render e (b::more) = c::t ∧ isWhitespace c = false := by
    rw [hrender]
    cases hn : b.name with
    | nil => exact ⟨_,_,rfl,by decide⟩
    | cons c name => exact ⟨_,_,rfl,(b.name_plain c (by simp [hn])).1⟩
  have hpiece : beforeFirst (needle key) (c::t) = c::beforeFirst (needle key) t :=
    beforeFirst_cons (by rw [← hct]; exact hfirst)
  refine ⟨c,_,by rw [hct,hpiece],hc,?_⟩
  have hname : "printer-".toList <+: render e (b::more) ↔ "printer-".toList <+: b.name := by
    rw [hrender]
    exact prefix_separated (by decide)
  rw [← hpiece,← hct,← hname]
  constructor
  · exact fun h => h.trans (beforeFirst_begins _ _)
  · rintro ⟨tail,ht⟩
    obtain ⟨keyTail,hkey⟩ := hk.starts
    have hneedle : needle key = 'p'::("rinter-".toList++keyTail++['=']) := by
      rw [needle,← hkey]
      rfl
    have htail : 'p'::("rinter-".toList++tail) = render e (b::more) := ht
    rw [← htail] at hfirst ⊢
    rw [beforeFirst_cons hfirst,hneedle,beforeFirst_of_first (by decide)]
    exact ⟨_,rfl⟩

/-- An unquoted value does not bring a quote before what follows it. -/
theorem head_not_quote (a : Attribute) {tail : List Char} (ht : ∀ c ∈ tail.head?, c ≠ '\'') :
    ∀ c ∈ (a.value++tail).head?, c ≠ '\'' := by
  intro c hc
  cases hv : a.value with
  | nil => exact ht c (by simpa [hv] using hc)
  | cons d value =>
    rw [hv] at hc
    obtain rfl : d = c := Option.some.inj hc
    exact (a.value_plain d (by simp [hv])).1

theorem last_piece (hk : StatusKey key) {cs : List Char} (hm : ¬needle key <:+: cs)
    (e : LineEnd) : beforeFirst (needle key) (cs++e.text) = cs++e.text := by
  cases e with
  | none => simpa [LineEnd.text] using beforeFirst_self hm
  | newline => exact beforeFirst_skip (not_mem_needle hk (by decide)) hm []

/-- A value is read rightly exactly when it is clean. -/
theorem value_read_iff (hk : StatusKey key) (hnext : ∀ b ∈ rest, b.name ≠ key) :
    readValue (beforeFirst (needle key) (a.valueText++following e rest)) = a.value ↔
      ValueClean key a rest := by
  by_cases hm : needle key <:+: a.value
  · exact iff_of_false (value_cut hk hm) (fun h => h.1 hm)
  by_cases hs : ' ' ∈ a.value
  · exact iff_of_true (value_quoted hk hm hs) ⟨hm,Or.inl hs⟩
  have hvalue : ∀ c ∈ a.value, c ≠ '\n' := fun c hc => (a.value_plain c hc).2
  have htext : a.valueText = a.value := if_neg hs
  have hclean : ValueClean key a rest ↔ trimChars a.value = a.value ∧
      ∀ b ∈ rest.head?, "printer-".toList <+: b.name := by
    simp [ValueClean,hm,hs]
  rw [htext,hclean]
  cases rest with
  | nil =>
    have hpiece := last_piece hk hm e
    have hquote : ∀ c ∈ (a.value++e.text).head?, c ≠ '\'' :=
      head_not_quote a (by cases e <;> simp [LineEnd.text])
    have hfront : readFront (a.value++e.text) = a.value := by
      cases e with
      | none => simpa [LineEnd.text] using readFront_plain hs hvalue
      | newline => exact readFront_newline hs hvalue
    rw [following,hpiece,readValue_bare hquote,hfront]
    simp
  | cons b more =>
    have hrest : following e (b::more) = ' '::render e (b::more) := rfl
    obtain ⟨c,q,hpiece,hc,hprinter⟩ := next_piece hk (hnext b (by simp)) more
    have hquote : ∀ d ∈ (a.value++ ' '::c::q).head?, d ≠ '\'' := head_not_quote a (by simp)
    rw [hrest,beforeFirst_skip (not_mem_needle hk (by decide)) hm,hpiece,readValue_bare hquote]
    by_cases hp : "printer-".toList <+: c::q
    · rw [readFront_printer hs hp]
      exact ⟨fun h => ⟨h,fun d hd => Option.some.inj hd ▸ hprinter.mp hp⟩,fun h => h.1⟩
    · obtain ⟨w,hw⟩ := readFront_other hs hvalue hc hp
      rw [hw]
      exact iff_of_false (trimChars_ne hc) (fun h => hp (hprinter.mpr (h.2 b rfl)))

end Values

section Lines

variable {e : LineEnd} {key : List Char} {a : Attribute} {attrs rest : List Attribute}

theorem afterFirst_own (h : a.name = key) :
    afterFirst (needle key) (render e (a::rest)) = some (a.valueText++following e rest) := by
  have hrender : render e (a::rest) = needle key++(a.valueText++following e rest) := by
    simp [render,Attribute.text,needle,h]
  rw [hrender,afterFirst_start (needle_ne_nil key)]

theorem last_absent (hk : StatusKey key) {cs : List Char} (hm : ¬needle key <:+: cs) :
    afterFirst (needle key) (cs++e.text) = none := by
  rw [afterFirst_none]
  cases e with
  | none => simpa [LineEnd.text] using hm
  | newline =>
    rw [← afterFirst_none,LineEnd.text,afterFirst_skip (not_mem_needle hk (by decide)) hm,
      afterFirst_none]
    exact fun h => needle_ne_nil key (List.infix_nil.mp h)

theorem nothing_found (hk : StatusKey key) (e : LineEnd) :
    afterFirst (needle key) (render e []) = none :=
  @last_absent e key hk [] (fun h => needle_ne_nil key (List.infix_nil.mp h))

theorem afterFirst_other (hk : StatusKey key) (hm : ¬Mentions key a) :
    afterFirst (needle key) (render e (a::rest)) = afterFirst (needle key) (render e rest) := by
  cases rest with
  | nil => exact (last_absent hk hm).trans (nothing_found hk e).symm
  | cons b more => exact afterFirst_skip (not_mem_needle hk (by decide)) hm (render e (b::more))

theorem lookup_own (h : a.name = key) : lookup key (a::rest) = some a.value := by
  simp [lookup,h]

theorem lookup_other (h : a.name ≠ key) : lookup key (a::rest) = lookup key rest := by
  simp [lookup,h]

/-- The attribute of a key is read rightly exactly when its value is clean. -/
theorem reads_own (hk : StatusKey key) (hn : ((a::rest).map Attribute.name).Nodup)
    (h : a.name = key) : Reads e key (a::rest) ↔ ValueClean key a rest := by
  have hnext : ∀ b ∈ rest, b.name ≠ key := by
    rintro b hb rfl
    exact (List.nodup_cons.mp hn).1 (h ▸ List.mem_map_of_mem hb)
  rw [← value_read_iff hk hnext,Reads,attributeChars,afterFirst_own h,lookup_own h,
    Option.map_some,Option.some.injEq]

theorem reads_other (hk : StatusKey key) (h : a.name ≠ key) (hm : ¬Mentions key a) :
    Reads e key (a::rest) ↔ Reads e key rest := by
  rw [Reads,Reads,attributeChars,attributeChars,afterFirst_other hk hm,lookup_other h]

theorem reads_of_clean (hk : StatusKey key) (hn : (attrs.map Attribute.name).Nodup)
    (hc : Clean key attrs) : Reads e key attrs := by
  induction attrs with
  | nil =>
    rw [Reads,attributeChars,nothing_found hk e]
    rfl
  | cons a rest ih =>
    by_cases h : a.name = key
    · rw [Clean,if_pos h] at hc
      exact (reads_own hk hn h).mpr hc
    · rw [Clean,if_neg h] at hc
      exact (reads_other hk h hc.1).mpr (ih (List.nodup_cons.mp hn).2 hc.2)

/-- A key that is read rightly is clean, unless its text stands in an attribute before it. -/
theorem clean_of_reads (hk : StatusKey key) (hn : (attrs.map Attribute.name).Nodup)
    (hr : Reads e key attrs) : Clean key attrs ∨ Shadowed key attrs := by
  induction attrs with
  | nil => exact Or.inl trivial
  | cons a rest ih =>
    by_cases h : a.name = key
    · exact Or.inl (by rw [Clean,if_pos h]; exact (reads_own hk hn h).mp hr)
    · by_cases hm : Mentions key a
      · have hfound : afterFirst (needle key) (render e (a::rest)) ≠ none := by
          rw [ne_eq,afterFirst_none,not_not]
          exact List.infix_append_of_infix_left hm
        obtain ⟨tail,ht⟩ := Option.ne_none_iff_exists'.mp hfound
        rw [Reads,attributeChars,ht,lookup_other h,Option.map_some,lookup] at hr
        obtain ⟨b,hb,-⟩ := Option.map_eq_some_iff.mp hr.symm
        have hname := List.find?_some hb
        exact Or.inr ⟨[],a,rest,rfl,h,hm,b,List.mem_of_find?_eq_some hb,beq_iff_eq.mp hname⟩
      · rcases ih (List.nodup_cons.mp hn).2 ((reads_other hk h hm).mp hr) with hc | hsh
        · exact Or.inl (by rw [Clean,if_neg h]; exact ⟨hm,hc⟩)
        · obtain ⟨front,d,back,rfl,hd⟩ := hsh
          exact Or.inr ⟨a::front,d,back,rfl,hd⟩

theorem attributeValue_render (key : String) :
    attributeValue (String.ofList (render e attrs)) key =
      (lookup key.toList attrs).map String.ofList ↔ Reads e key.toList attrs := by
  rw [attributeValue,String.toList_ofList,Reads]
  constructor
  · intro h
    exact Option.map_injective (fun s t hst => by simpa using congrArg String.toList hst) h
  · exact fun h => congrArg _ h

theorem reasonsBlockSubmission_ofList (reasons : List Char) :
    reasonsBlockSubmission (String.ofList reasons) = true ↔ ∃ reason ∈ splitChars ',' reasons,
      String.ofList (trimChars reason) ∈ ["offline","offline-report","paused"] := by
  rw [reasonsBlockSubmission,String.toList_ofList,List.any_eq_true]
  simp only [List.contains_iff_mem]

theorem reasonsBlockSubmission_empty : reasonsBlockSubmission "" = false := by
  decide +kernel

theorem map_ofList_eq (value : Option (List Char)) (s : String) :
    value.map String.ofList = some s ↔ value = some s.toList := by
  cases value with
  | none => simp
  | some cs =>
    rw [Option.map_some,Option.some.injEq,Option.some.injEq]
    constructor
    · rintro rfl
      exact String.toList_ofList.symm
    · rintro rfl
      exact String.ofList_toList

theorem reasons_block_iff (value : Option (List Char)) :
    reasonsBlockSubmission ((value.map String.ofList).getD "") = true ↔
      ∃ reasons ∈ value, ∃ reason ∈ splitChars ',' reasons,
        String.ofList (trimChars reason) ∈ ["offline","offline-report","paused"] := by
  cases value with
  | none =>
    simp [reasonsBlockSubmission_empty]
  | some reasons =>
    rw [Option.map_some,Option.getD_some,reasonsBlockSubmission_ofList]
    simp

theorem parse_unavailable (output : String) : parseCupsPrinterAvailability output = .unavailable ↔
    attributeValue output "printer-is-accepting-jobs" = some "false" ∨
    attributeValue output "printer-state" = some "5" ∨
    reasonsBlockSubmission ((attributeValue output "printer-state-reasons").getD "") = true := by
  unfold parseCupsPrinterAvailability
  dsimp only
  split_ifs with h
  · simpa [or_assoc] using h
  · simpa [or_assoc] using h

/-- The interface shows a printer as unavailable exactly when the submission finds it so. -/
theorem shown_unavailable_iff (output : String) :
    printerAvailabilityFromLpoptions output = .unavailable ↔
      parseCupsPrinterAvailability output = .unavailable := by
  unfold printerAvailabilityFromLpoptions
  dsimp only
  split_ifs with h
  · simp only [Bool.and_eq_true,Option.isNone_iff_eq_none,String.isEmpty_iff] at h
    rw [parse_unavailable,h.1.1,h.1.2,h.2]
    simp [reasonsBlockSubmission_empty]
  · cases parseCupsPrinterAvailability output <;> simp

/-- When the three keys are read rightly, so is the state of the printer. -/
theorem availability_read (h : ∀ key ∈ statusKeys,
    attributeValue (String.ofList (render e attrs)) key =
      (lookup key.toList attrs).map String.ofList) :
    parseCupsPrinterAvailability (String.ofList (render e attrs)) = .unavailable ↔
      Stopped attrs := by
  have haccepting := h "printer-is-accepting-jobs" (by simp [statusKeys])
  have hstate := h "printer-state" (by simp [statusKeys])
  have hreasons := h "printer-state-reasons" (by simp [statusKeys])
  rw [parse_unavailable,haccepting,hstate,hreasons,map_ofList_eq,map_ofList_eq,reasons_block_iff]
  rfl

end Lines

/-- A line of attributes is read rightly when the three keys are clean in it. A line that is
read rightly is clean, up to keys whose text stands in an attribute before their own. -/
theorem attributes_read (e : LineEnd) (attrs : List Attribute)
    (hn : (attrs.map Attribute.name).Nodup) :
    ((∀ key ∈ statusKeys, Clean key.toList attrs) → ReadsRight e attrs) ∧
    (ReadsRight e attrs → ∀ key ∈ statusKeys, Clean key.toList attrs ∨
      Shadowed key.toList attrs) := by
  constructor
  · intro hc
    have hreads : ∀ key ∈ statusKeys, attributeValue (String.ofList (render e attrs)) key =
        (lookup key.toList attrs).map String.ofList := fun key hk =>
      (attributeValue_render key).mpr (reads_of_clean (statusKeys_plain key hk) hn (hc key hk))
    exact ⟨hreads,availability_read hreads⟩
  · intro hr key hk
    exact clean_of_reads (statusKeys_plain key hk) hn ((attributeValue_render key).mp (hr.1 key hk))

def idleLine : List Attribute :=
  [.ofTexts "printer-info" "Label printer" (by decide) (by decide),
    .ofTexts "printer-is-accepting-jobs" "true" (by decide) (by decide),
    .ofTexts "printer-state" "3" (by decide) (by decide),
    .ofTexts "printer-state-reasons" "none" (by decide) (by decide)]

theorem idle_line_read : ReadsRight .newline idleLine := by
  refine (attributes_read .newline idleLine (by decide)).1 ?_
  decide +kernel

/-- A stopped printer whose state comes before an attribute of another kind. -/
def stoppedLine : List Attribute :=
  [.ofTexts "printer-is-accepting-jobs" "true" (by decide) (by decide),
    .ofTexts "printer-state" "5" (by decide) (by decide),
    .ofTexts "sides" "one-sided" (by decide) (by decide)]

theorem stopped_printer_available :
    (stoppedLine.map Attribute.name).Nodup ∧
    String.ofList (render .none stoppedLine) =
      "printer-is-accepting-jobs=true printer-state=5 sides=one-sided" ∧
    parseCupsPrinterAvailability (String.ofList (render .none stoppedLine)) = .available ∧
    Stopped stoppedLine ∧ ¬ReadsRight .none stoppedLine := by
  have hstopped : Stopped stoppedLine := Or.inr (Or.inl (by decide +kernel))
  have havailable :
      parseCupsPrinterAvailability (String.ofList (render .none stoppedLine)) = .available := by
    decide +kernel
  refine ⟨by decide,by decide +kernel,havailable,hstopped,fun h => ?_⟩
  have hun := h.2.mpr hstopped
  rw [havailable] at hun
  cases hun

end YinShu.CupsAttributes
