import YinShu.Submission
import YinShu.TextPieces

/-!
# The names of CUPS jobs

A job is named after its destination and a number. The agent reads the name of
its own job out of the answer of `lp`, and looks for it among the first words of
the list of completed jobs. Both readings are exact: a name is found where it
was written, and nowhere else.
-/

set_option autoImplicit false

namespace YinShu.CupsJobNames
open YinShu.TextScan YinShu.TextPieces YinShu.Submission

/-- CUPS has no white space in the names of its destinations. -/
structure Destination where
  name : String
  nonempty : name.toList ≠ []
  plain : ∀ c ∈ name.toList, isWhitespace c = false

structure JobId where
  printer : Destination
  number : ℕ

def JobId.chars (id : JobId) : List Char :=
  id.printer.name.toList++ '-'::Nat.toDigits 10 id.number

def JobId.text (id : JobId) : String := String.ofList id.chars

/-- The answer of `lp`: in English, or in a language without the English phrase. -/
inductive ServerLocale where
  | english
  | other (text : JobId → String)
      (silent : ∀ id, ¬"request id is ".toList <:+: (text id).toList)

def ServerLocale.reply : ServerLocale → JobId → String
  | .english, id => String.ofList ("request id is ".toList++(id.chars++" (1 file(s))\n".toList))
  | .other text _, id => text id

/-- What stays the same about a print server. -/
structure Site where
  destinations : List Destination
  locale : ServerLocale
  details : JobId → List Char
  oneLine : ∀ id, '\n' ∉ details id

def completedJobsContainsJob (output jobId : String) : Bool :=
  (lines output.toList).any (fun line =>
    (firstWord line).any (fun token => trimEndMatches '.' (String.ofList token) == jobId))

/-- What `lpstat -W completed -o` prints, one line for each job. -/
def completedText (site : Site) (ids : List JobId) : String :=
  String.ofList (ids.flatMap (fun id => id.chars++ ' '::(site.details id++['\n'])))

section Texts

variable {word front back : List Char} {id other : JobId} {c : Char}

theorem not_isWhitespace_of_isDigit (h : c.isDigit = true) : isWhitespace c = false := by
  simp only [Char.isDigit,Bool.and_eq_true,decide_eq_true_eq,UInt32.le_iff_toNat_le] at h
  have hlow : 48 ≤ c.toNat := h.1
  have hhigh : c.toNat ≤ 57 := h.2
  simp [isWhitespace]
  omega

theorem chars_plain (id : JobId) : ∀ c ∈ id.chars, isWhitespace c = false := by
  intro c hc
  rcases List.mem_append.mp hc with hc | hc
  · exact id.printer.plain c hc
  · rcases List.mem_cons.mp hc with rfl | hc
    · rfl
    · exact not_isWhitespace_of_isDigit (Nat.isDigit_of_mem_toDigits (by decide) (by decide) hc)

theorem chars_injective (h : id.chars = other.chars) : id = other := by
  have hdash : ∀ n, '-' ∉ Nat.toDigits 10 n := fun n hm =>
    absurd (Nat.isDigit_of_mem_toDigits (by decide) (by decide) hm) (by decide)
  have hsplit := rsplitOnceChars_append id.printer.name.toList (hdash id.number)
  rw [show id.printer.name.toList++ '-'::Nat.toDigits 10 id.number = other.chars from h,
    show other.chars = other.printer.name.toList++ '-'::Nat.toDigits 10 other.number from rfl,
    rsplitOnceChars_append other.printer.name.toList (hdash other.number)] at hsplit
  obtain ⟨hname,hnumber⟩ := Prod.mk.inj (Option.some.inj hsplit)
  obtain ⟨⟨name,_,_⟩,number⟩ := id
  obtain ⟨⟨otherName,_,_⟩,otherNumber⟩ := other
  have hn : number = otherNumber := by
    rw [← Nat.ofDigitChars_toDigits (by decide : 1 < 10) (by decide) (n := number),← hnumber,
      Nat.ofDigitChars_toDigits (by decide) (by decide)]
  simp only [String.toList_inj] at hname
  subst hn hname
  rfl

theorem text_inj : id.text = other.text ↔ id = other := by
  constructor
  · exact fun h => chars_injective (String.ofList_injective h)
  · rintro rfl
    rfl

/-- The first word of a line that begins with a word and a blank. -/
theorem firstWord_append (hw : word ≠ []) (hplain : ∀ c ∈ word, isWhitespace c = false)
    (hc : isWhitespace c = true) (rest : List Char) : firstWord (word++c::rest) = some word := by
  obtain ⟨w,word,rfl⟩ := List.exists_cons_of_ne_nil hw
  have hstart : isWhitespace w = false := hplain w (by simp)
  have htake : ((w::word)++c::rest).takeWhile (fun c => !isWhitespace c) = w::word := by
    rw [List.takeWhile_append_of_pos (by simpa using hplain)]
    simp [hc]
  rw [firstWord,List.cons_append,List.dropWhile_cons_of_neg (by simp [hstart]),
    ← List.cons_append,htake]

theorem trimmed_text (id : JobId) : trimEndMatches '.' id.text = id.text := by
  have hdigits : Nat.toDigits 10 id.number ≠ [] := Nat.toDigits_ne_nil
  have hkeep : id.chars.rdropWhile (· == '.') = id.chars := by
    rw [List.rdropWhile_eq_self_iff]
    intro hne hdot
    have hlast : id.chars.getLast hne = (Nat.toDigits 10 id.number).getLast hdigits := by
      simp [JobId.chars,hdigits]
    have hdigit : (id.chars.getLast hne).isDigit = true := by
      rw [hlast]
      exact Nat.isDigit_of_mem_toDigits (by decide) (by decide) (List.getLast_mem hdigits)
    rw [beq_iff_eq.mp hdot] at hdigit
    cases hdigit
  rw [trimEndMatches,JobId.text,String.toList_ofList,hkeep]

theorem firstWord_text (id : JobId) (hc : isWhitespace c = true) (rest : List Char) :
    firstWord (id.chars++c::rest) = some id.chars :=
  firstWord_append (by simp [JobId.chars]) (chars_plain id) hc rest

theorem phrase_ne_nil : "request id is ".toList ≠ [] := by simp

theorem reply_read (id : JobId) : parseLpJobId (ServerLocale.english.reply id) = some id.text := by
  have hfront : afterFirst "request id is ".toList (ServerLocale.english.reply id).toList =
      some (id.chars++" (1 file(s))\n".toList) := by
    have hreply : (ServerLocale.english.reply id).toList =
        "request id is ".toList++(id.chars++" (1 file(s))\n".toList) := String.toList_ofList
    exact (congrArg _ hreply).trans (afterFirst_start phrase_ne_nil _)
  have hword : firstWord (id.chars++" (1 file(s))\n".toList) = some id.chars :=
    firstWord_text id (by decide : isWhitespace ' ' = true) "(1 file(s))\n".toList
  simp only [parseLpJobId,hfront,hword,Option.map_some]
  exact congrArg some (trimmed_text id)

theorem silent_read {text : JobId → String}
    (h : ∀ id, ¬"request id is ".toList <:+: (text id).toList) :
    parseLpJobId ((ServerLocale.other text h).reply id) = none := by
  have hnone : afterFirst "request id is ".toList (text id).toList = none :=
    afterFirst_none.mpr (h id)
  unfold parseLpJobId ServerLocale.reply
  rw [hnone]

/-- Lines that all end in a newline are read back, short of a carriage return. -/
theorem lines_blocks {α : Type} (body : α → List Char) (hbody : ∀ a, '\n' ∉ body a)
    (as : List α) : lines (as.flatMap (fun a => body a++['\n'])) =
      as.map (fun a => if (body a).getLast? = some '\r' then (body a).dropLast else body a) := by
  have hsplit : splitChars '\n' (as.flatMap (fun a => body a++['\n'])) = as.map body++[[]] := by
    induction as with
    | nil => rfl
    | cons a as ih =>
      rw [List.flatMap_cons,List.append_assoc,List.singleton_append,splitChars_append,
        splitChars_of_not_mem (hbody a),ih]
      rfl
  rw [lines,hsplit]
  simp [Function.comp_def]

theorem firstWord_line (id : JobId) (details : List Char) :
    firstWord (if (id.chars++ ' '::details).getLast? = some '\r'
      then (id.chars++ ' '::details).dropLast else id.chars++ ' '::details) = some id.chars := by
  split
  · case isTrue h =>
    cases details with
    | nil => simp at h
    | cons d details =>
      rw [List.dropLast_append_cons,List.dropLast_cons_cons]
      exact firstWord_text id rfl _
  · exact firstWord_text id rfl _

theorem completed_read (site : Site) (ids : List JobId) (id : JobId) :
    completedJobsContainsJob (completedText site ids) id.text = true ↔ id ∈ ids := by
  have hnewline : ∀ other : JobId, '\n' ∉ other.chars++ ' '::site.details other := by
    intro other hm
    rcases List.mem_append.mp hm with hm | hm
    · exact absurd (chars_plain other _ hm) (by decide)
    · exact site.oneLine other (by simpa using hm)
  have htext : completedText site ids = String.ofList
      (ids.flatMap (fun id => (id.chars++ ' '::site.details id)++['\n'])) := by
    simp [completedText]
  rw [completedJobsContainsJob,htext,String.toList_ofList,lines_blocks _ hnewline,List.any_map]
  simp only [List.any_eq_true,Function.comp_apply,firstWord_line,Option.any_some,beq_iff_eq]
  constructor
  · rintro ⟨other,hm,heq⟩
    rw [show String.ofList other.chars = other.text from rfl,trimmed_text,text_inj] at heq
    exact heq ▸ hm
  · exact fun hm => ⟨id,hm,trimmed_text id⟩

end Texts

end YinShu.CupsJobNames
