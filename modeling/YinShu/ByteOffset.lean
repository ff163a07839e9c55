import Mathlib.Data.List.DropRight

/-!
# Texts and byte offsets

A text is a list of characters, and a position in it is the number of bytes of
the UTF-8 encoding before it. Cutting at an offset that is not the end of a
character fails; cutting at the byte length of a first part of the text returns
this part.
-/

set_option autoImplicit false

namespace YinShu.ByteOffset

def byteLength : List Char → ℕ
  | [] => 0
  | c::cs => c.utf8Size+byteLength cs

/-- The characters before an offset and those after it. -/
def splitAtByte : ℕ → List Char → Option (List Char × List Char)
  | 0, cs => some ([],cs)
  | _+1, [] => none
  | n+1, c::cs =>
    if c.utf8Size ≤ n+1 then (splitAtByte (n+1-c.utf8Size) cs).map (fun r => (c::r.1,r.2))
    else none

/-- The characters with the offsets at which they begin, the first at `start`. -/
def charIndices : ℕ → List Char → List (ℕ × Char)
  | _, [] => []
  | start, c::cs => (start,c)::charIndices (start+c.utf8Size) cs

/-- The offset of the last occurrence. -/
def rfind (c : Char) (cs : List Char) : Option ℕ :=
  ((charIndices 0 cs).reverse.find? (fun entry => entry.2 == c)).map Prod.fst

@[simp] theorem byteLength_nil : byteLength [] = 0 := rfl

@[simp] theorem byteLength_cons (c : Char) (cs : List Char) :
    byteLength (c::cs) = c.utf8Size+byteLength cs := rfl

@[simp] theorem byteLength_append (front back : List Char) :
    byteLength (front++back) = byteLength front+byteLength back := by
  induction front with
  | nil => simp
  | cons c front ih => simp [ih,Nat.add_assoc]

/-- A cut at the end of a first part returns this part. -/
theorem splitAtByte_append (front back : List Char) :
    splitAtByte (byteLength front) (front++back) = some (front,back) := by
  induction front with
  | nil => simp [splitAtByte]
  | cons c front ih =>
    have hc := Char.utf8Size_pos c
    obtain ⟨n,hn⟩ : ∃ n, c.utf8Size+byteLength front = n+1 :=
      ⟨c.utf8Size+byteLength front-1,by omega⟩
    have hrest : n+1-c.utf8Size = byteLength front := by omega
    have hle : c.utf8Size ≤ n+1 := by omega
    rw [byteLength_cons,hn,List.cons_append,splitAtByte,if_pos hle,hrest,ih,Option.map_some]

theorem charIndices_append (start : ℕ) (front back : List Char) :
    charIndices start (front++back) =
      charIndices start front++charIndices (start+byteLength front) back := by
  induction front generalizing start with
  | nil => simp [charIndices]
  | cons c front ih => simp [charIndices,ih,Nat.add_assoc]

theorem charIndices_take (n start : ℕ) (cs : List Char) :
    (charIndices start cs).take n = charIndices start (cs.take n) := by
  induction cs generalizing n start with
  | nil => simp [charIndices]
  | cons c cs ih =>
    cases n with
    | zero => simp [charIndices]
    | succ n => simp [charIndices,ih]

/-- The last character of a text ends where the text does. -/
theorem charIndices_getLast {cs : List Char} (h : cs ≠ []) (start : ℕ) :
    (charIndices start cs).getLast?.map (fun entry => entry.1+entry.2.utf8Size) =
      some (start+byteLength cs) := by
  obtain ⟨front,c,rfl⟩ : ∃ front c, cs = front++[c] :=
    ⟨cs.dropLast,cs.getLast h,(List.dropLast_append_getLast h).symm⟩
  rw [charIndices_append]
  simp [charIndices,Nat.add_assoc]

theorem map_snd_charIndices (start : ℕ) (cs : List Char) :
    (charIndices start cs).map Prod.snd = cs := by
  induction cs generalizing start with
  | nil => rfl
  | cons c cs ih => simp [charIndices,ih]

theorem rfind_append (c : Char) (front : List Char) {back : List Char} (h : c ∉ back) :
    rfind c (front++c::back) = some (byteLength front) := by
  have hback : ∀ start, (charIndices start back).reverse.find? (fun entry => entry.2 == c) =
      none := by
    intro start
    rw [List.find?_eq_none]
    intro entry he heq
    have hm : entry.2 ∈ (charIndices start back).map Prod.snd :=
      List.mem_map_of_mem (List.mem_reverse.mp he)
    rw [map_snd_charIndices,beq_iff_eq.mp heq] at hm
    exact h hm
  simp [rfind,charIndices_append,charIndices,List.find?_append,hback]

theorem rfind_none (c : Char) {cs : List Char} (h : c ∉ cs) : rfind c cs = none := by
  rw [rfind,Option.map_eq_none_iff,List.find?_eq_none]
  intro entry he heq
  have hm : entry.2 ∈ (charIndices 0 cs).map Prod.snd :=
    List.mem_map_of_mem (List.mem_reverse.mp he)
  rw [map_snd_charIndices,beq_iff_eq.mp heq] at hm
  exact h hm

/-- What is found is the offset of the last occurrence. -/
theorem rfind_some {c : Char} {cs : List Char} {index : ℕ} (h : rfind c cs = some index) :
    ∃ front back, cs = front++c::back ∧ c ∉ back ∧ byteLength front = index := by
  by_cases hm : c ∈ cs
  · obtain ⟨back,front,hrev,hback⟩ := List.eq_append_cons_of_mem (List.mem_reverse.mpr hm)
    have hcs : cs = front.reverse++c::back.reverse := by
      rw [← List.reverse_reverse cs,hrev]
      simp
    have hlast : c ∉ back.reverse := fun hc => hback (List.mem_reverse.mp hc)
    rw [hcs,rfind_append c front.reverse hlast] at h
    exact ⟨front.reverse,back.reverse,hcs,hlast,Option.some.inj h⟩
  · rw [rfind_none c hm] at h
    cases h

end YinShu.ByteOffset
