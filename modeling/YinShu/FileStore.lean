import Mathlib.Logic.Function.Basic
import YinShu.ErrorState

/-!
# A file system with failing operations

Paths name files or flat directories. The outcome of every operation is given
from outside; a failed write or copy may leave any content behind at its
target. Each operation has one rule that says which of its outcomes was given
and what it did, and `Frame` lists the paths that a program can have touched.
-/

set_option autoImplicit false

namespace YinShu.FileStore
open YinShu.ErrorState

abbrev Bytes := List UInt8

inductive Node where
  | file (bytes : Bytes)
  | dir (children : List (String × Bytes))
  deriving DecidableEq, Repr

abbrev Store (π : Type) := π → Option Node

/-- A failed write: the error, and what it leaves at the path, if anything. -/
structure Failure where
  error : String
  left : Option Bytes
  deriving DecidableEq, Repr

variable {π : Type}

def Store.bytes (s : Store π) (path : π) : Bytes :=
  match s path with
  | some (.file bytes) => bytes
  | _ => []

def Store.child (s : Store π) (dir : π) (name : String) : Bytes :=
  match s dir with
  | some (.dir children) => (children.lookup name).getD []
  | _ => []

variable [DecidableEq π]

def Store.put (s : Store π) (path : π) (node : Node) : Store π :=
  Function.update s path (some node)

def Store.remove (s : Store π) (path : π) : Store π := Function.update s path none

def Store.leave (s : Store π) (path : π) (left : Option Bytes) : Store π :=
  match left with
  | some bytes => s.put path (.file bytes)
  | none => s

def Store.addChild (s : Store π) (dir : π) (name : String) (bytes : Bytes) : Store π :=
  match s dir with
  | some (.dir children) => s.put dir (.dir ((name,bytes)::children))
  | _ => s

def create (path : π) (error : Option String) : EStateM String (Store π) PUnit :=
  match error with
  | some error => throw error
  | none => modify (fun s => s.put path (.file []))

def createDir (path : π) (error : Option String) : EStateM String (Store π) PUnit :=
  match error with
  | some error => throw error
  | none => modify (fun s => s.put path (.dir []))

def delete (path : π) (error : Option String) : EStateM String (Store π) PUnit :=
  match error with
  | some error => throw error
  | none => modify (fun s => s.remove path)

def write (path : π) (bytes : Bytes) (failure : Option Failure) :
    EStateM String (Store π) PUnit :=
  match failure with
  | some failure => do
    modify (fun s => s.leave path failure.left)
    throw failure.error
  | none => modify (fun s => s.put path (.file bytes))

def append (path : π) (bytes : Bytes) (failure : Option Failure) :
    EStateM String (Store π) PUnit := do
  let s ← get
  write path (s.bytes path++bytes) failure

def flush (path : π) (failure : Option Failure) : EStateM String (Store π) PUnit :=
  match failure with
  | some failure => do
    modify (fun s => s.leave path failure.left)
    throw failure.error
  | none => pure ⟨⟩

def copy (source target : π) (failure : Option Failure) : EStateM String (Store π) PUnit := do
  let s ← get
  write target (s.bytes source) failure

/-- A copy into a directory; what a failure leaves is a child as well. -/
def copyInto (source dir : π) (name : String) (failure : Option Failure) :
    EStateM String (Store π) PUnit := do
  let s ← get
  match failure with
  | some failure => do
    modify (fun s => match failure.left with
      | some bytes => s.addChild dir name bytes
      | none => s)
    throw failure.error
  | none => modify (fun t => t.addChild dir name (s.bytes source))

/-- An early return after a deletion whose own result is dropped. -/
def deleteAndThrow {ε α : Type} (path : π) (outcome : Option String) (error : ε) :
    EStateM ε (Store π) α := do
  ignore (delete path outcome)
  throw error

section Lookup

variable (s : Store π) {path q : π}

@[simp] theorem put_same (node : Node) : s.put path node path = some node := by
  simp [Store.put]

theorem put_other (node : Node) (h : q ≠ path) : s.put path node q = s q := by
  simp [Store.put,h]

@[simp] theorem remove_same : s.remove path path = none := by
  simp [Store.remove]

theorem remove_other (h : q ≠ path) : s.remove path q = s q := by
  simp [Store.remove,h]

theorem leave_same_none (left : Option Bytes) (h : s path = none) :
    s.leave path left path = none ↔ left = none := by
  cases left <;> simp [Store.leave,h]

theorem leave_same_isSome (left : Option Bytes) (h : (s path).isSome = true) :
    (s.leave path left path).isSome = true := by
  cases left with
  | none => exact h
  | some bytes => simp [Store.leave]

end Lookup

/-- Every path outside the list is as before. -/
def Frame (paths : List π) (s t : Store π) : Prop := ∀ path, path ∉ paths → t path = s path

section Frames

variable {paths more : List π} {s t u : Store π} {path : π}

omit [DecidableEq π] in
theorem Frame.refl (paths : List π) (s : Store π) : Frame paths s s := fun _ _ => rfl

omit [DecidableEq π] in
theorem Frame.trans (h : Frame paths s t) (h' : Frame paths t u) : Frame paths s u :=
  fun path hp => (h' path hp).trans (h path hp)

omit [DecidableEq π] in
theorem Frame.weaken (h : Frame paths s t) (hm : paths ⊆ more) : Frame more s t :=
  fun path hp => h path (fun hq => hp (hm hq))

theorem Frame.update (h : Frame paths s t) (hp : path ∈ paths) (node : Option Node) :
    Frame paths s (Function.update t path node) := by
  intro q hq
  have hne : q ≠ path := by
    rintro rfl
    exact hq hp
  rw [Function.update_of_ne hne]
  exact h q hq

theorem Frame.put (h : Frame paths s t) (hp : path ∈ paths) (node : Node) :
    Frame paths s (t.put path node) := h.update hp _

theorem Frame.remove (h : Frame paths s t) (hp : path ∈ paths) :
    Frame paths s (t.remove path) := h.update hp _

theorem Frame.leave (h : Frame paths s t) (hp : path ∈ paths) (left : Option Bytes) :
    Frame paths s (t.leave path left) := by
  cases left with
  | none => exact h
  | some bytes => exact h.put hp _

theorem Frame.addChild (h : Frame paths s t) (hp : path ∈ paths) (name : String)
    (bytes : Bytes) : Frame paths s (t.addChild path name bytes) := by
  unfold Store.addChild
  split
  · exact h.put hp _
  · exact h

end Frames

section Rules

variable (s : Store π) (path : π)

theorem create_rule (error : Option String) :
    Ensures (create path error) s (fun _ t => error = none ∧ t = s.put path (.file []))
      (fun e t => error = some e ∧ t = s) := by
  cases error with
  | some error => exact ensures_throw ⟨rfl,rfl⟩
  | none => exact ensures_modify ⟨rfl,rfl⟩

theorem createDir_rule (error : Option String) :
    Ensures (createDir path error) s (fun _ t => error = none ∧ t = s.put path (.dir []))
      (fun e t => error = some e ∧ t = s) := by
  cases error with
  | some error => exact ensures_throw ⟨rfl,rfl⟩
  | none => exact ensures_modify ⟨rfl,rfl⟩

theorem delete_rule (error : Option String) :
    Ensures (delete path error) s (fun _ t => error = none ∧ t = s.remove path)
      (fun e t => error = some e ∧ t = s) := by
  cases error with
  | some error => exact ensures_throw ⟨rfl,rfl⟩
  | none => exact ensures_modify ⟨rfl,rfl⟩

/-- A deletion whose result is dropped, when deletions succeed. -/
theorem ignore_delete_rule {ε : Type} {F : ε → Store π → Prop} {error : Option String}
    (h : error = none) :
    Ensures (ignore (delete path error)) s (fun _ t => t = s.remove path) F := by
  refine (delete_rule s path error).ignore ?_ ?_
  · rintro _ t ⟨-,rfl⟩
    rfl
  · rintro e t ⟨he,-⟩
    simp [h] at he

theorem deleteAndThrow_rule {ε α : Type} {Q : α → Store π → Prop} {outcome : Option String}
    (error : ε) (h : outcome = none) :
    Ensures (deleteAndThrow path outcome error) s Q (fun _ t => t = s.remove path) := by
  refine (ignore_delete_rule (F := fun _ _ => False) s path h).bind ?_ (by simp)
  rintro _ t ht
  exact ensures_throw ht

theorem write_rule (bytes : Bytes) (failure : Option Failure) :
    Ensures (write path bytes failure) s
      (fun _ t => failure = none ∧ t = s.put path (.file bytes))
      (fun e t => ∃ left, failure = some ⟨e,left⟩ ∧ t = s.leave path left) := by
  cases failure with
  | some failure => exact ⟨failure.left,rfl,rfl⟩
  | none => exact ensures_modify ⟨rfl,rfl⟩

theorem append_rule (bytes : Bytes) (failure : Option Failure) :
    Ensures (append path bytes failure) s
      (fun _ t => failure = none ∧ t = s.put path (.file (s.bytes path++bytes)))
      (fun e t => ∃ left, failure = some ⟨e,left⟩ ∧ t = s.leave path left) :=
  write_rule s path (s.bytes path++bytes) failure

theorem flush_rule (failure : Option Failure) :
    Ensures (flush path failure) s (fun _ t => failure = none ∧ t = s)
      (fun e t => ∃ left, failure = some ⟨e,left⟩ ∧ t = s.leave path left) := by
  cases failure with
  | some failure => exact ⟨failure.left,rfl,rfl⟩
  | none => exact ensures_pure ⟨rfl,rfl⟩

theorem copy_rule (source : π) (failure : Option Failure) :
    Ensures (copy source path failure) s
      (fun _ t => failure = none ∧ t = s.put path (.file (s.bytes source)))
      (fun e t => ∃ left, failure = some ⟨e,left⟩ ∧ t = s.leave path left) :=
  write_rule s path (s.bytes source) failure

theorem copyInto_rule (source : π) (name : String) (failure : Option Failure) :
    Ensures (copyInto source path name failure) s
      (fun _ t => failure = none ∧ t = s.addChild path name (s.bytes source))
      (fun e t => (∃ left, failure = some ⟨e,left⟩) ∧ Frame [path] s t) := by
  cases failure with
  | none => exact ensures_modify ⟨rfl,rfl⟩
  | some failure =>
    refine ⟨⟨failure.left,rfl⟩,?_⟩
    obtain ⟨error,left⟩ := failure
    cases left with
    | none => exact Frame.refl _ _
    | some bytes => exact (Frame.refl _ _).addChild (by simp) _ _

end Rules

end YinShu.FileStore
