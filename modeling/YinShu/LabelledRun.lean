import Mathlib.Data.List.Basic
import Mathlib.Logic.Function.Basic

/-!
# Runs of labelled machines

A machine is a partial step function on states and labels. A run is a finite
word of labels that is enabled letter by letter; nondeterminism is resolved
by the word, so that every interleaving of several parties is one word. The
invariant rules below are the only induction on words that the developments
of the agent need.
-/

set_option autoImplicit false

namespace YinShu.LabelledRun

variable {σ ℓ : Type*}

def run (step : σ → ℓ → Option σ) : List ℓ → σ → Option σ
  | [], s => some s
  | l::ls, s => (step s l).bind (run step ls)

theorem run_append (step : σ → ℓ → Option σ) (ls rest : List ℓ) (s : σ) :
    run step (ls++rest) s = (run step ls s).bind (run step rest) := by
  induction ls generalizing s with
  | nil => rfl
  | cons l ls ih =>
    cases h : step s l with
    | none => simp [run, h]
    | some t => simpa [run, h] using ih t

/-- Every letter of the word is taken in a state that satisfies the guard. -/
def Guarded (step : σ → ℓ → Option σ) (P : σ → ℓ → Prop) : List ℓ → σ → Prop
  | [], _ => True
  | l::ls, s => P s l ∧ ∀ t ∈ step s l, Guarded step P ls t

instance guardedDecidable (step : σ → ℓ → Option σ) (P : σ → ℓ → Prop)
    [∀ s l, Decidable (P s l)] : ∀ ls s, Decidable (Guarded step P ls s)
  | [], _ => isTrue trivial
  | l::ls, s =>
    have : ∀ t, Decidable (Guarded step P ls t) := guardedDecidable step P ls
    inferInstanceAs (Decidable (P s l ∧ ∀ t ∈ step s l, Guarded step P ls t))

theorem guarded_invariant (step : σ → ℓ → Option σ) (P : σ → ℓ → Prop) (I : σ → Prop)
    (hstep : ∀ s l t, I s → P s l → step s l = some t → I t)
    (ls : List ℓ) (s t : σ) (hs : I s) (hg : Guarded step P ls s)
    (hr : run step ls s = some t) : I t := by
  induction ls generalizing s with
  | nil =>
    cases hr
    exact hs
  | cons l ls ih =>
    obtain ⟨u,hu,hr⟩ := Option.bind_eq_some_iff.mp hr
    exact ih u (hstep s l u hs hg.1 hu) (hg.2 u hu) hr

/-- A guard on states and a property of every letter make one guard. -/
theorem guarded_and_mem (step : σ → ℓ → Option σ) (P : σ → ℓ → Prop) (Q : ℓ → Prop)
    (ls : List ℓ) (s : σ) (hg : Guarded step P ls s) (hq : ∀ l ∈ ls, Q l) :
    Guarded step (fun s l => P s l ∧ Q l) ls s := by
  induction ls generalizing s with
  | nil => trivial
  | cons l ls ih =>
    exact ⟨⟨hg.1,hq l (by simp)⟩,fun t ht => ih t (hg.2 t ht) (fun m hm => hq m (by simp [hm]))⟩

theorem guarded_true (step : σ → ℓ → Option σ) (ls : List ℓ) (s : σ) :
    Guarded step (fun _ _ => True) ls s := by
  induction ls generalizing s with
  | nil => trivial
  | cons l ls ih => exact ⟨trivial,fun t _ => ih t⟩

/-- What every step preserves holds at the end of every run. -/
theorem run_invariant (step : σ → ℓ → Option σ) (I : σ → Prop)
    (hstep : ∀ s l t, I s → step s l = some t → I t)
    (ls : List ℓ) (s t : σ) (hs : I s) (hr : run step ls s = some t) : I t :=
  guarded_invariant step (fun _ _ => True) I (fun s l t hi _ h => hstep s l t hi h) ls s t hs
    (guarded_true step ls s) hr

/-- What every step with a good letter preserves holds at the end of a run of such letters. -/
theorem run_invariant_of_mem (step : σ → ℓ → Option σ) (Q : ℓ → Prop) (I : σ → Prop)
    (hstep : ∀ s l t, I s → Q l → step s l = some t → I t)
    (ls : List ℓ) (s t : σ) (hs : I s) (hq : ∀ l ∈ ls, Q l) (hr : run step ls s = some t) : I t :=
  guarded_invariant step (fun _ l => True ∧ Q l) I (fun s l t hi hl h => hstep s l t hi hl.2 h)
    ls s t hs (guarded_and_mem step _ Q ls s (guarded_true step ls s) hq) hr

/-- A measure that no step raises and that every counted letter lowers bounds the
number of counted letters, for as long as the run has not left the watched states. -/
theorem run_count_le (step : σ → ℓ → Option σ) (Q : ℓ → Prop) (I W : σ → Prop)
    (counted : ℓ → Bool) (rank : σ → ℕ)
    (hstep : ∀ s l t, I s → Q l → step s l = some t →
      I t ∧ (W t → W s ∧ rank t+(counted l).toNat ≤ rank s))
    (ls : List ℓ) (s t : σ) (hs : I s) (hq : ∀ l ∈ ls, Q l) (hr : run step ls s = some t)
    (ht : W t) : W s ∧ rank t+ls.countP counted ≤ rank s := by
  induction ls generalizing s with
  | nil =>
    cases hr
    exact ⟨ht,by simp⟩
  | cons l ls ih =>
    obtain ⟨u,hu,hr⟩ := Option.bind_eq_some_iff.mp hr
    obtain ⟨hi,hback⟩ := hstep s l u hs (hq l (by simp)) hu
    obtain ⟨hwu,hcount⟩ := ih u hi (fun m hm => hq m (by simp [hm])) hr
    obtain ⟨hws,hle⟩ := hback hwu
    refine ⟨hws,?_⟩
    cases hl : counted l <;> simp only [hl, Bool.toNat_false, Bool.toNat_true] at hle <;>
      simp only [List.countP_cons, hl, Bool.false_eq_true, if_true, if_false] <;> omega

/-- A run that leaves the watched states does so by one of its letters. -/
theorem run_switch (step : σ → ℓ → Option σ) (W : σ → Prop) (ls : List ℓ) (s t : σ)
    (hr : run step ls s = some t) (hs : W s) (ht : ¬ W t) :
    ∃ before l after u v, ls = before++l::after ∧ run step before s = some u ∧
      step u l = some v ∧ run step after v = some t ∧ W u ∧ ¬ W v := by
  induction ls generalizing s with
  | nil =>
    cases hr
    exact absurd hs ht
  | cons l ls ih =>
    obtain ⟨u,hu,hr⟩ := Option.bind_eq_some_iff.mp hr
    by_cases hw : W u
    · obtain ⟨before,m,after,v,w,rfl,hb,hm,ha,hv,hnw⟩ := ih u hr hw
      exact ⟨l::before,m,after,v,w,rfl,by simp [run,hu,hb],hm,ha,hv,hnw⟩
    · exact ⟨[],l,ls,s,u,rfl,rfl,hu,hr,hs,hw⟩

section Parties

variable {ι : Type*} [DecidableEq ι]

/-- Any number of machines of one kind, of which a letter names the one that moves. -/
def parties (step : σ → ℓ → Option σ) (s : ι → σ) (l : ι × ℓ) : Option (ι → σ) :=
  (step (s l.1) l.2).map (Function.update s l.1)

theorem parties_invariant (step : σ → ℓ → Option σ) (I : σ → Prop)
    (hstep : ∀ s l t, I s → step s l = some t → I t)
    (ls : List (ι × ℓ)) (s t : ι → σ) (hs : ∀ i, I (s i)) (hr : run (parties step) ls s = some t)
    (i : ι) : I (t i) := by
  refine run_invariant (parties step) (fun s => ∀ i, I (s i)) ?_ ls s t hs hr i
  intro s l t hs ht i
  obtain ⟨u,hu,rfl⟩ := Option.map_eq_some_iff.mp ht
  by_cases h : i = l.1
  · subst h
    simpa using hstep _ _ _ (hs l.1) hu
  · simpa [h] using hs i

/-- What a letter of one party establishes there and all its steps keep holds at the end. -/
theorem parties_established (step : σ → ℓ → Option σ) (I : σ → Prop)
    (hstep : ∀ s l t, I s → step s l = some t → I t) (i : ι) (l : ℓ)
    (hl : ∀ s t, step s l = some t → I t)
    (ls : List (ι × ℓ)) (s t : ι → σ) (hm : (i,l) ∈ ls) (hr : run (parties step) ls s = some t) :
    I (t i) := by
  obtain ⟨before,after,rfl⟩ := List.append_of_mem hm
  rw [run_append] at hr
  obtain ⟨u,_,hr⟩ := Option.bind_eq_some_iff.mp hr
  obtain ⟨v,hv,hr⟩ := Option.bind_eq_some_iff.mp hr
  obtain ⟨w,hw,rfl⟩ := Option.map_eq_some_iff.mp hv
  refine run_invariant (parties step) (fun s => I (s i)) ?_ after _ t ?_ hr
  · intro s m t hs ht
    obtain ⟨x,hx,rfl⟩ := Option.map_eq_some_iff.mp ht
    by_cases h : i = m.1
    · subst h
      simpa using hstep _ _ _ hs hx
    · simpa [h] using hs
  · simpa using hl _ _ hw

end Parties

end YinShu.LabelledRun
