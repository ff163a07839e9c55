import Mathlib.Data.List.Nodup

/-!
# First-in first-out ledgers

The abstract purpose of a job queue: a growing list of accepted items with
pairwise distinct keys, and the number of items already handed out. Items
leave in the order in which they came, and their keys stay reserved after
they have left. An ill-formed ledger cannot be built.
-/

set_option autoImplicit false

namespace YinShu.FifoLedger

variable {α κ : Type*}

structure Ledger (key : α → κ) where
  accepted : List α
  taken : ℕ
  taken_le : taken ≤ accepted.length
  nodup : (accepted.map key).Nodup

variable {key : α → κ}

def Ledger.empty (key : α → κ) : Ledger key := ⟨[],0,Nat.le_refl 0,List.nodup_nil⟩

def Ledger.popped (l : Ledger key) : List α := l.accepted.take l.taken

def Ledger.pending (l : Ledger key) : List α := l.accepted.drop l.taken

def Ledger.Fresh (l : Ledger key) (xs : List α) : Prop :=
  (xs.map key).Nodup ∧ ∀ x ∈ xs, key x ∉ l.accepted.map key

def Ledger.append (l : Ledger key) (xs : List α) (h : l.Fresh xs) : Ledger key where
  accepted := l.accepted++xs
  taken := l.taken
  taken_le := by
    have := l.taken_le
    simp only [List.length_append]
    omega
  nodup := by
    rw [List.map_append,List.nodup_append]
    refine ⟨l.nodup,h.1,?_⟩
    rintro a ha b hb rfl
    obtain ⟨x,hx,rfl⟩ := List.mem_map.mp hb
    exact h.2 x hx ha

def Ledger.pop (l : Ledger key) (h : l.taken < l.accepted.length) : Ledger key where
  accepted := l.accepted
  taken := l.taken+1
  taken_le := h
  nodup := l.nodup

theorem popped_append_pending (l : Ledger key) : l.popped++l.pending = l.accepted :=
  List.take_append_drop l.taken l.accepted

theorem append_popped (l : Ledger key) (xs : List α) (h : l.Fresh xs) :
    (l.append xs h).popped = l.popped :=
  List.take_append_of_le_length l.taken_le

theorem append_pending (l : Ledger key) (xs : List α) (h : l.Fresh xs) :
    (l.append xs h).pending = l.pending++xs :=
  List.drop_append_of_le_length l.taken_le

theorem pending_cons_lt (l : Ledger key) (x : α) (rest : List α) (h : l.pending = x::rest) :
    l.taken < l.accepted.length := by
  by_contra hn
  have hd := List.drop_eq_nil_of_le (Nat.le_of_not_lt hn)
  rw [Ledger.pending,hd] at h
  cases h

/-- The item handed out is the oldest one that was still waiting. -/
theorem pop_spec (l : Ledger key) (x : α) (rest : List α) (h : l.pending = x::rest) :
    (l.pop (pending_cons_lt l x rest h)).popped = l.popped++[x] ∧
      (l.pop (pending_cons_lt l x rest h)).pending = rest := by
  have hlt := pending_cons_lt l x rest h
  have hd := List.drop_eq_getElem_cons hlt
  rw [Ledger.pending,hd] at h
  obtain ⟨hx,hr⟩ := List.cons.inj h
  constructor
  · simp only [Ledger.popped,Ledger.pop]
    rw [List.take_succ_eq_append_getElem hlt,hx]
  · exact hr

section Blocks

variable {β : Type*} [DecidableEq κ] {values : α → List β}

/-- Each value of an element, under the key of the element. -/
def keyed (key : α → κ) (values : α → List β) (x : α) : List (κ × β) :=
  (values x).map (fun b => (key x,b))

theorem filter_keyed (k : κ) (x : α) : (keyed key values x).filter (fun b => b.1 == k) =
    if key x = k then keyed key values x else [] := by
  unfold keyed
  split_ifs with h
  · simp [List.filter_eq_self,h]
  · simp [List.filter_eq_nil_iff,h]

theorem filter_blocks_none (k : κ) (xs : List α) (h : k ∉ xs.map key) :
    (xs.flatMap (keyed key values)).filter (fun b => b.1 == k) = [] := by
  rw [List.filter_flatMap,List.flatMap_eq_nil_iff]
  intro x hx
  rw [filter_keyed,if_neg]
  rintro rfl
  exact h (List.mem_map_of_mem hx)

/-- Where no two elements have one key, the values under a key are those of one
element. -/
theorem filter_blocks (xs : List α) (h : (xs.map key).Nodup) {x : α} (hx : x ∈ xs) :
    (xs.flatMap (keyed key values)).filter (fun b => b.1 == key x) = keyed key values x := by
  induction xs with
  | nil => cases hx
  | cons y ys ih =>
    obtain ⟨hy,hys⟩ := List.nodup_cons.mp h
    rw [List.flatMap_cons,List.filter_append,filter_keyed]
    rcases List.mem_cons.mp hx with rfl | hx
    · rw [if_pos rfl,filter_blocks_none _ _ hy,List.append_nil]
    · rw [if_neg,ih hys hx,List.nil_append]
      intro he
      exact hy (he ▸ List.mem_map_of_mem hx)

end Blocks

end YinShu.FifoLedger
