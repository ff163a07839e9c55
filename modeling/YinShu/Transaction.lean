import YinShu.ErrorState

/-!
# Transactions on one connection

A connection holds the committed database and, inside a transaction, a working
copy that the statements change. Any statement, the start and the commit may
fail; a transaction that does not commit is rolled back when it is dropped. A
transaction therefore has all of its effect or none.
-/

set_option autoImplicit false

namespace YinShu.Transaction
open YinShu.ErrorState

variable {δ : Type}

structure Connection (δ : Type) where
  committed : δ
  working : Option δ := none

abbrev Session (δ α : Type) := EStateM String (Connection δ) α

def failing (error : Option String) (m : Session δ PUnit) : Session δ PUnit :=
  match error with
  | some error => throw error
  | none => m

def start (error : Option String) : Session δ PUnit :=
  failing error (modify (fun c => { c with working := some c.committed }))

def execute (statement : δ → δ) (error : Option String) : Session δ PUnit :=
  failing error (modify (fun c => { c with working := c.working.map statement }))

def commit (error : Option String) : Session δ PUnit :=
  failing error (modify (fun c => ⟨c.working.getD c.committed,none⟩))

def rollback : Session δ PUnit := modify (fun c => { c with working := none })

/-- The scope of a transaction value: left early, it rolls back. -/
def transaction (starting : Option String) (body : Session δ PUnit)
    (committing : Option String) : Session δ PUnit := do
  start starting
  match ← attempt (do body; commit committing) with
  | .ok _ => pure ⟨⟩
  | .error error => do
    rollback
    throw error

section Rules

variable {db after : δ} {error : Option String} {E : String → Connection δ → Prop}

theorem failing_rule {m : Session δ PUnit} {c : Connection δ} {Q : PUnit → Connection δ → Prop}
    (h : Ensures m c Q E) (hE : ∀ e, E e c) : Ensures (failing error m) c Q E := by
  cases error with
  | some error => exact ensures_throw (hE error)
  | none => exact h

theorem execute_rule (statement : δ → δ) (working : δ)
    (hE : ∀ e, E e ⟨db,some working⟩) :
    Ensures (execute statement error) ⟨db,some working⟩
      (fun _ t => t = ⟨db,some (statement working)⟩) E :=
  failing_rule (ensures_modify rfl) hE

/-- A body that leaves the committed database alone is committed as a whole or not
at all. -/
theorem transaction_rule {starting committing : Option String} {body : Session δ PUnit}
    (h : Ensures body ⟨db,some db⟩ (fun _ t => t = ⟨db,some after⟩)
      (fun _ t => t.committed = db)) :
    Ensures (transaction starting body committing) ⟨db,none⟩ (fun _ t => t = ⟨after,none⟩)
      (fun _ t => t = ⟨db,none⟩) := by
  refine Ensures.bind (failing_rule (Q := fun _ t => t = ⟨db,some db⟩)
    (E := fun _ t => t = ⟨db,none⟩) (ensures_modify rfl) (fun _ => rfl)) ?_ (fun _ _ h => h)
  rintro _ _ rfl
  have hcommit : Ensures (do body; commit committing) (⟨db,some db⟩ : Connection δ)
      (fun _ t => t = ⟨after,none⟩) (fun _ t => t.committed = db) := by
    refine h.bind ?_ (fun _ _ h => h)
    rintro _ _ rfl
    exact failing_rule (ensures_modify rfl) (fun _ => rfl)
  refine Ensures.bind hcommit.attempt_ended ?_ (by simp)
  rintro (error|a) t ht
  · have hdb : t.committed = db := ht
    refine ensures_modify_bind (ensures_throw ?_)
    rw [← hdb]
  · exact ensures_pure ht

end Rules

end YinShu.Transaction
