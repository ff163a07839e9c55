import Mathlib.Data.List.Basic

/-!
# Bounded broadcast channels

A broadcast channel keeps everything that was ever sent; a receiver is a
position in that history. Only the last entries, up to the capacity, can still
be read: a receiver further behind is told so once and moved to the oldest
entry that is left. A receiver that is never told so reads every entry once
and in order.
-/

set_option autoImplicit false

namespace YinShu.Signals

variable {α : Type*}

inductive Received (α : Type*) where
  | pending
  | entry (value : α)
  | lagged (skipped : ℕ)

/-- What `recv` yields at a position, and the position after it. -/
def recv (capacity : ℕ) (log : List α) (cursor : ℕ) : Received α × ℕ :=
  if capacity < log.length-cursor then
    (.lagged (log.length-capacity-cursor),log.length-capacity)
  else match log[cursor]? with
    | none => (.pending,cursor)
    | some value => (.entry value,cursor+1)

theorem recv_le (capacity : ℕ) (log : List α) (cursor : ℕ) (h : cursor ≤ log.length) :
    (recv capacity log cursor).2 ≤ log.length := by
  unfold recv
  split
  · exact Nat.sub_le _ _
  · split
    · exact h
    · rename_i value hv
      exact (List.getElem?_eq_some_iff.mp hv).1

theorem recv_entry (capacity : ℕ) (log : List α) (cursor next : ℕ) (value : α)
    (h : recv capacity log cursor = (.entry value,next)) :
    next = cursor+1 ∧ value ∈ log ∧ log.take next = log.take cursor++[value] := by
  unfold recv at h
  split at h
  · cases h
  · split at h
    · cases h
    · rename_i v hv
      cases h
      refine ⟨rfl,List.mem_of_getElem? hv,?_⟩
      rw [List.take_add_one,hv]
      rfl

theorem recv_within (capacity : ℕ) (log : List α) (cursor : ℕ) (hlt : cursor < log.length)
    (hcap : log.length-cursor ≤ capacity) :
    ∃ value, recv capacity log cursor = (.entry value,cursor+1) := by
  refine ⟨log[cursor],?_⟩
  simp [recv,Nat.not_lt.mpr hcap,hlt]

end YinShu.Signals
