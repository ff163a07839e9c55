import Mathlib.Data.List.Induction
import Mathlib.Data.Nat.Basic
import Mathlib.Tactic.Ring

/-!
# Byte streams and big-endian words

A reader takes bytes from the front of what has not been read; when too few are
left it takes them all and fails as the stream ends. A writer appends bytes and
fails once its room is used up, if it has a limit. Words of a fixed width are
written most significant byte first.
-/

set_option autoImplicit false

namespace YinShu.ByteStream

/-- The lowest `width` bytes of a number, the most significant one first. -/
def bigEndian : ℕ → ℕ → List UInt8
  | 0, _ => []
  | width+1, n => bigEndian width (n/256)++[UInt8.ofNat n]

def bigEndianValue (bytes : List UInt8) : ℕ :=
  bytes.foldl (fun n byte => n*256+byte.toNat) 0

theorem bigEndianValue_concat (bytes : List UInt8) (byte : UInt8) :
    bigEndianValue (bytes++[byte]) = bigEndianValue bytes*256+byte.toNat := by
  simp [bigEndianValue,List.foldl_append]

@[simp] theorem length_bigEndian (width n : ℕ) : (bigEndian width n).length = width := by
  induction width generalizing n with
  | zero => rfl
  | succ width ih => simp [bigEndian,ih]

theorem bigEndianValue_bigEndian (width n : ℕ) :
    bigEndianValue (bigEndian width n) = n % 256^width := by
  induction width generalizing n with
  | zero => simp [bigEndian,bigEndianValue,Nat.mod_one]
  | succ width ih =>
    rw [bigEndian,bigEndianValue_concat,ih,pow_succ',Nat.mod_mul,UInt8.toNat_ofNat']
    ring

theorem bigEndianValue_lt (bytes : List UInt8) : bigEndianValue bytes < 256^bytes.length := by
  induction bytes using List.reverseRecOn with
  | nil => simp [bigEndianValue]
  | append_singleton bytes byte ih =>
    have hb := byte.toNat_lt
    rw [bigEndianValue_concat,List.length_append,List.length_singleton,pow_succ]
    omega

theorem bigEndian_bigEndianValue (bytes : List UInt8) :
    bigEndian bytes.length (bigEndianValue bytes) = bytes := by
  induction bytes using List.reverseRecOn with
  | nil => rfl
  | append_singleton bytes byte ih =>
    have hb : byte.toNat < 256 := byte.toNat_lt
    have hdiv : (bigEndianValue bytes*256+byte.toNat)/256 = bigEndianValue bytes := by omega
    have hlast : UInt8.ofNat (bigEndianValue bytes*256+byte.toNat) = byte := by
      apply UInt8.toNat_inj.mp
      rw [UInt8.toNat_ofNat']
      omega
    rw [bigEndianValue_concat,List.length_append,List.length_singleton,bigEndian,hdiv,ih,hlast]

section Reading

variable {ε : Type} (ending : ε)

/-- Takes the next `n` unread bytes; `ending` is the error with which the
stream ends. -/
def takeExact (n : ℕ) : EStateM ε (List UInt8) (List UInt8) := fun unread =>
  if n ≤ unread.length then .ok (unread.take n) (unread.drop n) else .error ending []

def readU32 : EStateM ε (List UInt8) UInt32 := do
  let bytes ← takeExact ending 4
  return UInt32.ofNat (bigEndianValue bytes)

theorem takeExact_ok (n : ℕ) (unread bytes rest : List UInt8) :
    takeExact ending n unread = .ok bytes rest ↔ bytes.length = n ∧ unread = bytes++rest := by
  unfold takeExact
  constructor
  · intro h
    split at h
    · case isTrue hn =>
      cases h
      exact ⟨List.length_take_of_le hn,(List.take_append_drop n unread).symm⟩
    · cases h
  · rintro ⟨rfl,rfl⟩
    simp

theorem readU32_eq (unread : List UInt8) :
    readU32 ending unread = if 4 ≤ unread.length
      then .ok (UInt32.ofNat (bigEndianValue (unread.take 4))) (unread.drop 4)
      else .error ending [] := by
  by_cases h : 4 ≤ unread.length
  · simp [readU32,Bind.bind,EStateM.bind,takeExact,h,Pure.pure,EStateM.pure]
  · simp [readU32,Bind.bind,EStateM.bind,takeExact,h]

theorem readU32_ok (word : UInt32) (unread rest : List UInt8) :
    readU32 ending unread = .ok word rest ↔ unread = bigEndian 4 word.toNat++rest := by
  rw [readU32_eq]
  constructor
  · intro h
    split at h
    · case isTrue hl =>
      cases h
      have h4 : (unread.take 4).length = 4 := List.length_take_of_le hl
      have hlt := bigEndianValue_lt (unread.take 4)
      rw [h4] at hlt
      have hword : (UInt32.ofNat (bigEndianValue (unread.take 4))).toNat =
          bigEndianValue (unread.take 4) := UInt32.toNat_ofNat_of_lt' hlt
      have hbytes := bigEndian_bigEndianValue (unread.take 4)
      rw [h4] at hbytes
      rw [hword,hbytes,List.take_append_drop]
    · cases h
  · rintro rfl
    have hword := word.toNat_lt
    simp [bigEndianValue_bigEndian,Nat.mod_eq_of_lt hword]

end Reading

section Writing

variable {ε : Type}

/-- A writer: the bytes that reached it and, if it breaks, how many more it
takes before it does and the error it breaks with. -/
structure Sink (ε : Type) where
  written : List UInt8
  fault : Option (ℕ × ε) := none
  deriving DecidableEq, Repr

def writeAll (bytes : List UInt8) : EStateM ε (Sink ε) Unit := fun sink =>
  match sink.fault with
  | none => .ok () ⟨sink.written++bytes,none⟩
  | some (room,error) =>
    if bytes.length ≤ room then .ok () ⟨sink.written++bytes,some (room-bytes.length,error)⟩
    else .error error ⟨sink.written++bytes.take room,some (0,error)⟩

def writeU32 (word : UInt32) : EStateM ε (Sink ε) Unit := writeAll (bigEndian 4 word.toNat)

@[simp] theorem writeAll_intact (bytes written : List UInt8) :
    writeAll bytes (⟨written,none⟩ : Sink ε) = .ok () ⟨written++bytes,none⟩ := rfl

/-- Two writes in a row put down what one write of all the bytes does. -/
theorem writeAll_append (first second : List UInt8) (sink : Sink ε) :
    (do writeAll first; writeAll second : EStateM ε (Sink ε) Unit) sink =
      writeAll (first++second) sink := by
  obtain ⟨written,fault⟩ := sink
  cases fault with
  | none => simp [Bind.bind,EStateM.bind]
  | some fault =>
    obtain ⟨room,error⟩ := fault
    by_cases h1 : first.length ≤ room
    · by_cases h2 : second.length ≤ room-first.length
      · have h12 : first.length+second.length ≤ room := by omega
        simp [Bind.bind,EStateM.bind,writeAll,h1,h2,h12,Nat.sub_sub]
      · have h12 : ¬ first.length+second.length ≤ room := by omega
        simp [Bind.bind,EStateM.bind,writeAll,h1,h2,h12,List.take_append,
          List.take_of_length_le h1]
    · have h12 : ¬ first.length+second.length ≤ room := by omega
      have h0 : room-first.length = 0 := by omega
      simp [Bind.bind,EStateM.bind,writeAll,h1,h12,List.take_append,h0]

/-- A write that breaks has put down a proper part of its bytes. -/
theorem writeAll_error {bytes : List UInt8} {sink broken : Sink ε} {error : ε}
    (h : writeAll bytes sink = .error error broken) :
    ∃ part more, bytes = part++more ∧ more ≠ [] ∧ broken.written = sink.written++part := by
  obtain ⟨written,fault⟩ := sink
  cases fault with
  | none => cases h
  | some fault =>
    obtain ⟨room,e⟩ := fault
    simp only [writeAll] at h
    split at h
    · cases h
    · case isFalse hroom =>
      cases h
      refine ⟨bytes.take room,bytes.drop room,(List.take_append_drop room bytes).symm,?_,rfl⟩
      intro hd
      exact hroom (List.drop_eq_nil_iff.mp hd)

end Writing

end YinShu.ByteStream
