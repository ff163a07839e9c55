import YinShu.TextScan

/-!
# Pieces of a text

What splitting and searching make of a text that was put together from parts.
A separator that a part does not hold is found where the part ends; splitting
at every separator distributes over a join; a word without the separator is
never found across it.
-/

set_option autoImplicit false

namespace YinShu.TextPieces
open YinShu.TextScan

/-- The parts before and after the last separator. -/
def rsplitOnceChars (sep : Char) (cs : List Char) : Option (List Char × List Char) :=
  (splitOnceChars sep cs.reverse).map (fun r => (r.2.reverse,r.1.reverse))

def splitWhitespace (cs : List Char) : List (List Char) :=
  (cs.splitOnP isWhitespace).filter (fun word => !word.isEmpty)

/-- Lines end at a newline, with a carriage return before it or not. -/
def lines (cs : List Char) : List (List Char) :=
  let pieces := splitChars '\n' cs
  pieces.dropLast.map (fun line => if line.getLast? = some '\r' then line.dropLast else line)++
    (pieces.getLast?.filter (fun line => !line.isEmpty)).toList

/-- The text before the first occurrence of a word, or all of it. -/
def beforeFirst (word : List Char) : List Char → List Char
  | [] => []
  | c::cs => if (stripStart word (c::cs)).isSome then [] else c::beforeFirst word cs

variable {sep : Char} {front back rest : List Char}

theorem stripStart_some {start cs : List Char} :
    stripStart start cs = some rest ↔ cs = start++rest := by
  induction start generalizing cs with
  | nil => simp [stripStart]
  | cons p start ih =>
    cases cs with
    | nil => simp [stripStart]
    | cons c cs =>
      by_cases hp : p = c
      · simp [stripStart,hp,ih]
      · simp [stripStart,hp,Ne.symm hp]

theorem toLower_of_isDigit {c : Char} (h : c.isDigit = true) : c.toLower = c := by
  simp only [Char.isDigit, Bool.and_eq_true, decide_eq_true_eq] at h
  unfold Char.toLower
  rw [dif_neg]
  rintro ⟨hA,-⟩
  exact absurd (UInt32.le_trans hA h.2) (by decide)

theorem stripStart_append (front rest : List Char) :
    stripStart front (front++rest) = some rest := by
  induction front with
  | nil => cases rest <;> rfl
  | cons c front ih => simpa [stripStart] using ih

theorem splitOnceChars_append (h : sep ∉ front) (back : List Char) :
    splitOnceChars sep (front++sep::back) = some (front,back) := by
  induction front with
  | nil => simp [splitOnceChars]
  | cons c front ih =>
    obtain ⟨hc,hf⟩ := not_or.mp (fun h' => h (List.mem_cons.mpr h'))
    simp [splitOnceChars,Ne.symm hc,ih hf]

theorem splitOnceChars_mem (h : splitOnceChars sep rest = some (front,back)) : sep ∈ rest := by
  induction rest generalizing front back with
  | nil => cases h
  | cons c cs ih =>
    unfold splitOnceChars at h
    split_ifs at h with hc
    · simp [hc]
    · obtain ⟨⟨f,b⟩,hr,-⟩ := Option.map_eq_some_iff.mp h
      exact List.mem_cons_of_mem c (ih hr)

theorem rsplitOnceChars_append (front : List Char) (h : sep ∉ back) :
    rsplitOnceChars sep (front++sep::back) = some (front,back) := by
  have hr : (front++sep::back).reverse = back.reverse++sep::front.reverse := by simp
  rw [rsplitOnceChars,hr,splitOnceChars_append (by simpa using h)]
  simp

theorem splitChars_ne_nil (sep : Char) (cs : List Char) : splitChars sep cs ≠ [] := by
  cases cs with
  | nil => simp [splitChars]
  | cons c cs =>
    unfold splitChars
    split_ifs
    · simp
    · split <;> simp

theorem splitChars_of_not_mem (h : sep ∉ front) : splitChars sep front = [front] := by
  induction front with
  | nil => rfl
  | cons c front ih =>
    obtain ⟨hc,hf⟩ := not_or.mp (fun h' => h (List.mem_cons.mpr h'))
    simp [splitChars,Ne.symm hc,ih hf]

theorem splitChars_append (sep : Char) (front back : List Char) :
    splitChars sep (front++sep::back) = splitChars sep front++splitChars sep back := by
  induction front with
  | nil => simp [splitChars]
  | cons c front ih =>
    by_cases hc : c = sep
    · simp [splitChars,hc,ih]
    · cases hf : splitChars sep front with
      | nil => exact absurd hf (splitChars_ne_nil sep front)
      | cons part parts => simp [splitChars,hc,ih,hf]

theorem mem_of_mem_splitChars {part cs : List Char} (hp : part ∈ splitChars sep cs) {c : Char}
    (hc : c ∈ part) : c ∈ cs := by
  induction cs generalizing part with
  | nil => simp_all [splitChars]
  | cons d cs ih =>
    by_cases hd : d = sep
    · rw [splitChars,if_pos hd] at hp
      rcases List.mem_cons.mp hp with rfl | hp
      · cases hc
      · exact List.mem_cons_of_mem d (ih hp hc)
    · cases hs : splitChars sep cs with
      | nil => exact absurd hs (splitChars_ne_nil sep cs)
      | cons first parts =>
        rw [splitChars,if_neg hd,hs] at hp
        rcases List.mem_cons.mp hp with rfl | hp
        · rcases List.mem_cons.mp hc with rfl | hc
          · exact List.mem_cons_self
          · exact List.mem_cons_of_mem d (ih (by simp [hs]) hc)
        · exact List.mem_cons_of_mem d (ih (by simp [hs,hp]) hc)

section Words

variable {word cs : List Char} {c s : Char}

theorem stripStart_none : stripStart word cs = none ↔ ¬word <+: cs := by
  rw [← not_iff_not,not_not,← ne_eq,Option.ne_none_iff_exists']
  simp only [stripStart_some]
  exact ⟨fun ⟨rest,h⟩ => ⟨rest,h.symm⟩,fun ⟨rest,h⟩ => ⟨rest,h.symm⟩⟩

theorem afterFirst_none : afterFirst word cs = none ↔ ¬word <:+: cs := by
  induction cs with
  | nil => rw [afterFirst,stripStart_none,List.prefix_nil,List.infix_nil]
  | cons c cs ih =>
    rw [List.infix_cons_iff,not_or,← ih,← stripStart_none]
    cases h : stripStart word (c::cs) <;> simp [afterFirst,h]

/-- A character that is not in the word ends what a prefix can match. -/
theorem prefix_separated (hc : c ∉ word) : word <+: front++c::back ↔ word <+: front := by
  induction word generalizing front with
  | nil => simp
  | cons w word ih =>
    obtain ⟨hw,hword⟩ := not_or.mp (fun h => hc (List.mem_cons.mpr h))
    cases front with
    | nil => simp [Ne.symm hw]
    | cons d front => simp [List.cons_prefix_cons,ih hword]

theorem afterFirst_start (hw : word ≠ []) (rest : List Char) :
    afterFirst word (word++rest) = some rest := by
  obtain ⟨w,word,rfl⟩ := List.exists_cons_of_ne_nil hw
  have h := stripStart_append (w::word) rest
  rw [List.cons_append] at h
  simp [afterFirst,h]

/-- A word that is not in the front is not found before the separator either. -/
theorem afterFirst_skip (hc : c ∉ word) (h : ¬word <:+: front) (back : List Char) :
    afterFirst word (front++c::back) = afterFirst word back := by
  induction front with
  | nil =>
    have hn : ¬word <+: []++c::back := fun hp => h ((prefix_separated hc).mp hp).isInfix
    have hs : stripStart word (c::back) = none := stripStart_none.mpr hn
    simp [afterFirst,hs]
  | cons d front ih =>
    have hn : ¬word <+: (d::front)++c::back :=
      fun hp => h ((prefix_separated hc).mp hp).isInfix
    have hs : stripStart word (d::(front++c::back)) = none := stripStart_none.mpr hn
    rw [List.cons_append,afterFirst,hs]
    exact ih (fun hi => h (List.infix_cons hi))

theorem beforeFirst_start (hw : word ≠ []) (rest : List Char) :
    beforeFirst word (word++rest) = [] := by
  obtain ⟨w,word,rfl⟩ := List.exists_cons_of_ne_nil hw
  have h := stripStart_append (w::word) rest
  rw [List.cons_append] at h
  simp [beforeFirst,h]

theorem beforeFirst_cons (h : ¬word <+: c::cs) :
    beforeFirst word (c::cs) = c::beforeFirst word cs := by
  simp [beforeFirst,stripStart_none.mpr h]

theorem beforeFirst_skip (hc : c ∉ word) (h : ¬word <:+: front) (back : List Char) :
    beforeFirst word (front++c::back) = front++c::beforeFirst word back := by
  induction front with
  | nil =>
    have hn : ¬word <+: []++c::back := fun hp => h ((prefix_separated hc).mp hp).isInfix
    exact beforeFirst_cons hn
  | cons d front ih =>
    have hp : word <+: (d::front)++c::back → word <+: d::front := (prefix_separated hc).mp
    have hn : ¬word <+: d::(front++c::back) := fun hw => h (hp hw).isInfix
    rw [List.cons_append,beforeFirst_cons hn,ih (fun hi => h (List.infix_cons hi))]
    rfl

theorem beforeFirst_self (h : ¬word <:+: cs) : beforeFirst word cs = cs := by
  induction cs with
  | nil => rfl
  | cons c cs ih =>
    rw [beforeFirst_cons (fun hp => h hp.isInfix),ih (fun hi => h (List.infix_cons hi))]

theorem beforeFirst_begins (word cs : List Char) : beforeFirst word cs <+: cs := by
  induction cs with
  | nil => exact List.prefix_refl _
  | cons c cs ih =>
    unfold beforeFirst
    split_ifs
    · exact List.nil_prefix
    · exact List.cons_prefix_cons.mpr ⟨rfl,ih⟩

/-- A word in the front cuts something off it. -/
theorem beforeFirst_shorter (hw : word ≠ []) (h : word <:+: front) (back : List Char) :
    ∃ more, more ≠ [] ∧ front = beforeFirst word (front++back)++more := by
  induction front with
  | nil => exact absurd (List.infix_nil.mp h) hw
  | cons d front ih =>
    by_cases hp : word <+: d::(front++back)
    · have hs : (stripStart word (d::(front++back))).isSome = true := by
        rw [← Option.ne_none_iff_isSome,ne_eq,stripStart_none,not_not]
        exact hp
      refine ⟨d::front,by simp,?_⟩
      simp [beforeFirst,hs]
    · rcases List.infix_cons_iff.mp h with hd | hd
      · exact absurd (hd.trans (List.prefix_append _ back)) hp
      · obtain ⟨more,hm,hf⟩ := ih hd
        refine ⟨more,hm,?_⟩
        rw [List.cons_append,beforeFirst_cons hp,List.cons_append,← hf]

/-- A word is not found to begin where its first character does not stand. -/
theorem beforeFirst_of_first (hs : s ∉ front) (back : List Char) :
    beforeFirst (s::word) (front++back) = front++beforeFirst (s::word) back := by
  induction front with
  | nil => rfl
  | cons d front ih =>
    obtain ⟨hd,hf⟩ := not_or.mp (fun h => hs (List.mem_cons.mpr h))
    have hn : ¬s::word <+: d::(front++back) := fun hp => hd (List.cons_prefix_cons.mp hp).1
    rw [List.cons_append,beforeFirst_cons hn,ih hf]
    rfl

end Words

section Trimming

/-- Trimming keeps every character that is not white space. -/
theorem countP_trimChars (cs : List Char) : (trimChars cs).countP (fun c => !isWhitespace c) =
    cs.countP (fun c => !isWhitespace c) := by
  have hdrop : ∀ cs : List Char, (cs.dropWhile isWhitespace).countP (fun c => !isWhitespace c) =
      cs.countP (fun c => !isWhitespace c) := by
    intro cs
    induction cs with
    | nil => rfl
    | cons c cs ih =>
      cases hc : isWhitespace c
      · simp [hc]
      · simpa [hc] using ih
  rw [trimChars,List.rdropWhile,List.countP_reverse,hdrop,List.countP_reverse,hdrop]

theorem length_trimChars_le (cs : List Char) : (trimChars cs).length ≤ cs.length :=
  (List.rdropWhile_prefix _ _).length_le.trans (List.dropWhile_suffix _).length_le

end Trimming

end YinShu.TextPieces
