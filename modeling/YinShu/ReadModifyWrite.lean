import Mathlib.Logic.Function.Basic
import YinShu.LabelledRun

/-!
# Two clients of one shared value

A client reads the value, plans a new one from what it read, and later commits
the plan as a whole. A word of turns is an interleaving of two clients. When
both succeed, either one client read what the other had committed, or both
read the same value and the first commit is overwritten by the second.
-/

set_option autoImplicit false

namespace YinShu.ReadModifyWrite
open YinShu.LabelledRun

variable {σ : Type*}

structure Client (σ : Type*) where
  plan : σ → Option σ
  commit : σ → Option σ

inductive Progress (σ : Type*) where
  | fresh
  | holding (next : σ)
  | succeeded
  | failed

structure Shared (σ : Type*) where
  value : σ
  progress : Bool → Progress σ := fun _ => .fresh

def Shared.set (s : Shared σ) (who : Bool) (progress : Progress σ) : Shared σ :=
  { s with progress := Function.update s.progress who progress }

def turn (client : Bool → Client σ) (s : Shared σ) (who : Bool) : Option (Shared σ) :=
  match s.progress who with
  | .fresh =>
    match (client who).plan s.value with
    | none => some (s.set who .failed)
    | some next => some (s.set who (.holding next))
  | .holding next =>
    match (client who).commit next with
    | none => some (s.set who .failed)
    | some value => some (Shared.set { s with value := value } who .succeeded)
  | .succeeded => none
  | .failed => none

def Succeeded (s : Shared σ) : Prop := ∀ who, s.progress who = .succeeded

section Completed

variable {client : Bool → Client σ} {s t : Shared σ} {who : Bool} {ls : List Bool}

theorem turn_failed (hs : turn client s who = some t) {other : Bool}
    (h : s.progress other = .failed) : t.progress other = .failed := by
  by_cases ho : other = who
  · subst ho
    simp [turn,h] at hs
  · unfold turn at hs
    split at hs <;> (try split at hs) <;> cases hs <;> simpa [Shared.set,ho] using h

theorem not_failed (hr : run (turn client) ls s = some t) (hs : Succeeded t) (who : Bool) :
    s.progress who ≠ .failed := by
  intro h
  have hf := run_invariant (turn client) (fun u => u.progress who = .failed)
    (fun _ _ _ h hs => turn_failed hs h) ls s t h hr
  rw [hs who] at hf
  cases hf

/-- The next turn of a run that ends well reads, or commits, without failing. -/
theorem next_turn (who : Bool) (hr : run (turn client) ls s = some t) (hs : Succeeded t)
    (hn : s.progress who ≠ .succeeded) :
    ∃ b rest u, ls = b::rest ∧ run (turn client) rest u = some t ∧
      ((s.progress b = .fresh ∧ ∃ next, (client b).plan s.value = some next ∧
          u = s.set b (.holding next)) ∨
        ∃ next value, s.progress b = .holding next ∧ (client b).commit next = some value ∧
          u = Shared.set { s with value := value } b .succeeded) := by
  cases ls with
  | nil =>
    cases hr
    exact absurd (hs who) hn
  | cons b rest =>
    obtain ⟨u,hu,hr⟩ := Option.bind_eq_some_iff.mp hr
    have hfail := not_failed hr hs b
    refine ⟨b,rest,u,rfl,hr,?_⟩
    unfold turn at hu
    cases hp : s.progress b with
    | fresh =>
      cases hplan : (client b).plan s.value with
      | none =>
        simp only [hp,hplan,Option.some.injEq] at hu
        rw [← hu] at hfail
        simp [Shared.set] at hfail
      | some next =>
        simp only [hp,hplan,Option.some.injEq] at hu
        exact Or.inl ⟨rfl,next,rfl,hu.symm⟩
    | holding next =>
      cases hcommit : (client b).commit next with
      | none =>
        simp only [hp,hcommit,Option.some.injEq] at hu
        rw [← hu] at hfail
        simp [Shared.set] at hfail
      | some value =>
        simp only [hp,hcommit,Option.some.injEq] at hu
        exact Or.inr ⟨next,value,rfl,hcommit,hu.symm⟩
    | succeeded => simp [hp] at hu
    | failed => simp [hp] at hu

theorem run_succeeded (h : Succeeded s) (hr : run (turn client) ls s = some t) :
    ls = [] ∧ t = s := by
  cases ls with
  | nil =>
    cases hr
    exact ⟨rfl,rfl⟩
  | cons b rest =>
    obtain ⟨u,hu,-⟩ := Option.bind_eq_some_iff.mp hr
    simp [turn,h b] at hu

theorem succeeded_set {a : Bool} (h : s.progress a = .succeeded) :
    Succeeded (s.set (!a) .succeeded) := by
  intro b
  by_cases hb : b = a
  · subst hb
    simpa [Shared.set] using h
  · simp [Shared.set,Bool.eq_not_of_ne hb]

/-- One client is done and the other holds its plan. -/
theorem run_last (a : Bool) (next : σ) (ha : s.progress a = .succeeded)
    (hb : s.progress (!a) = .holding next) (hr : run (turn client) ls s = some t)
    (hs : Succeeded t) : ls = [!a] ∧ (client (!a)).commit next = some t.value := by
  obtain ⟨b,rest,u,rfl,hr,h⟩ := next_turn (!a) hr hs (by simp [hb])
  have hba : b = !a := by
    refine Bool.eq_not_of_ne (fun he => ?_)
    subst he
    simp [ha] at h
  subst hba
  rcases h with ⟨hf,-⟩ | ⟨m,value,hm,hc,rfl⟩
  · simp [hb] at hf
  · rw [hb] at hm
    cases hm
    obtain ⟨rfl,rfl⟩ := run_succeeded (succeeded_set (s := { s with value := value }) ha) hr
    exact ⟨rfl,hc⟩

/-- One client is done before the other starts. -/
theorem run_alone {a : Bool} (ha : s.progress a = .succeeded)
    (hb : s.progress (!a) = .fresh) (hr : run (turn client) ls s = some t)
    (hs : Succeeded t) : ls = [!a,!a] ∧ ∃ next, (client (!a)).plan s.value = some next ∧
      (client (!a)).commit next = some t.value := by
  obtain ⟨b,rest,u,rfl,hr,h⟩ := next_turn (!a) hr hs (by simp [hb])
  have hba : b = !a := by
    refine Bool.eq_not_of_ne (fun he => ?_)
    subst he
    simp [ha] at h
  subst hba
  rcases h with ⟨-,next,hp,rfl⟩ | ⟨next,value,hm,-⟩
  · obtain ⟨rfl,hc⟩ := run_last a next (by simpa [Shared.set] using ha)
      (by simp [Shared.set]) hr hs
    exact ⟨rfl,next,hp,hc⟩
  · simp [hb] at hm

/-- Both clients hold a plan: the second commit decides. -/
theorem run_both {plans : Bool → σ} (h : ∀ b, s.progress b = .holding (plans b))
    (hr : run (turn client) ls s = some t) (hs : Succeeded t) :
    ∃ a value, ls = [a,!a] ∧ (client a).commit (plans a) = some value ∧
      (client (!a)).commit (plans (!a)) = some t.value := by
  obtain ⟨a,rest,u,rfl,hr,hc⟩ := next_turn true hr hs (by simp [h])
  rcases hc with ⟨hf,-⟩ | ⟨next,value,hm,hc,rfl⟩
  · simp [h] at hf
  · rw [h a] at hm
    cases hm
    obtain ⟨rfl,hl⟩ := run_last a (plans (!a)) (by simp [Shared.set])
      (by simpa [Shared.set] using h (!a)) hr hs
    exact ⟨a,value,rfl,hc,hl⟩

/-- One client holds a plan and the other has not read. -/
theorem run_started (a : Bool) (next : σ) (ha : s.progress a = .holding next)
    (hb : s.progress (!a) = .fresh) (hr : run (turn client) ls s = some t)
    (hs : Succeeded t) :
    (ls = [a,!a,!a] ∧ ∃ value other, (client a).commit next = some value ∧
      (client (!a)).plan value = some other ∧ (client (!a)).commit other = some t.value) ∨
    (∃ other, (client (!a)).plan s.value = some other ∧
      ((ls = [!a,a,!a] ∧ (client (!a)).commit other = some t.value ∧
          ((client a).commit next).isSome) ∨
        (ls = [!a,!a,a] ∧ (client a).commit next = some t.value ∧
          ((client (!a)).commit other).isSome))) := by
  obtain ⟨b,rest,u,rfl,hr,h⟩ := next_turn a hr hs (by simp [ha])
  by_cases hba : b = a
  · subst hba
    rcases h with ⟨hf,-⟩ | ⟨m,value,hm,hc,rfl⟩
    · simp [ha] at hf
    · rw [ha] at hm
      cases hm
      obtain ⟨rfl,other,hp,hl⟩ := run_alone (a := b) (by simp [Shared.set])
        (by simpa [Shared.set] using hb) hr hs
      exact Or.inl ⟨rfl,value,other,hc,hp,hl⟩
  · obtain rfl := Bool.eq_not_of_ne hba
    rcases h with ⟨-,other,hp,rfl⟩ | ⟨m,value,hm,-⟩
    · refine Or.inr ⟨other,hp,?_⟩
      have hboth : ∀ c, (s.set (!a) (.holding other)).progress c =
          .holding (if c = a then next else other) := by
        intro c
        by_cases hc : c = a
        · subst hc
          simpa [Shared.set] using ha
        · simp [Shared.set,Bool.eq_not_of_ne hc]
      obtain ⟨c,value,rfl,hc,hl⟩ := run_both hboth hr hs
      by_cases hca : c = a
      · subst hca
        simp only [if_true] at hc
        exact Or.inl ⟨rfl,by simpa using hl,by simp [hc]⟩
      · obtain rfl := Bool.eq_not_of_ne hca
        simp only [Bool.not_not,if_true] at hl
        exact Or.inr ⟨by simp,hl,by simp at hc; simp [hc]⟩
    · simp [hb] at hm

/-- All ways in which two clients can both succeed. -/
theorem completed {base : σ} (hr : run (turn client) ls { value := base } = some t)
    (hs : Succeeded t) :
    ∃ a next value other, (client a).plan base = some next ∧
      (client a).commit next = some value ∧ (client (!a)).commit other = some t.value ∧
      ((ls = [a,a,!a,!a] ∧ (client (!a)).plan value = some other) ∨
        ((ls = [a,!a,a,!a] ∨ ls = [!a,a,a,!a]) ∧ (client (!a)).plan base = some other)) := by
  obtain ⟨a,rest,u,rfl,hr,h⟩ := next_turn true hr hs (by simp)
  rcases h with ⟨-,next,hp,rfl⟩ | ⟨m,value,hm,-⟩
  · rcases run_started a next (by simp [Shared.set]) (by simp [Shared.set]) hr hs
      with ⟨rfl,value,other,hc,hq,hl⟩ | ⟨other,hq,⟨rfl,hl,hc⟩ | ⟨rfl,hl,hc⟩⟩
    · exact ⟨a,next,value,other,hp,hc,hl,Or.inl ⟨rfl,hq⟩⟩
    · obtain ⟨value,hc⟩ := Option.isSome_iff_exists.mp hc
      exact ⟨a,next,value,other,hp,hc,hl,Or.inr ⟨Or.inl rfl,hq⟩⟩
    · obtain ⟨value,hc⟩ := Option.isSome_iff_exists.mp hc
      exact ⟨!a,other,value,next,hq,hc,by simpa using hl,
        Or.inr ⟨Or.inr (by simp),by simpa using hp⟩⟩
  · cases hm

end Completed

/-- Each client reaches its effect, and leaves the effect of the other as it was. -/
structure Independent (client : Bool → Client σ) (Effect : Bool → σ → Prop)
    (Valid : σ → Prop) : Prop where
  kept : ∀ b v next w, Valid v → (client b).plan v = some next →
    (client b).commit next = some w → Valid w
  achieved : ∀ b v next w, Valid v → (client b).plan v = some next →
    (client b).commit next = some w → Effect b w
  framed : ∀ b v next w, Valid v → (client b).plan v = some next →
    (client b).commit next = some w → (Effect (!b) w ↔ Effect (!b) v)

/-- Both effects are in the final value exactly when the clients ran one after the
other, or the effect of the client that committed first was there from the start. -/
theorem both_effects_iff {client : Bool → Client σ} {Effect : Bool → σ → Prop}
    {Valid : σ → Prop} (h : Independent client Effect Valid) {base : σ} (hb : Valid base)
    {ls : List Bool} {t : Shared σ} (hr : run (turn client) ls { value := base } = some t)
    (hs : Succeeded t) :
    (∀ who, Effect who t.value) ↔
      (∃ a, ls = [a,a,!a,!a]) ∨ ∃ a, ls.getLast? = some (!a) ∧ Effect a base := by
  obtain ⟨a,next,value,other,hp,hc,hl,⟨rfl,hq⟩ | ⟨hls,hq⟩⟩ := completed hr hs
  · have hv := h.kept a base next value hb hp hc
    have hea := h.achieved a base next value hb hp hc
    have heb := h.achieved (!a) value other t.value hv hq hl
    have hfr := h.framed (!a) value other t.value hv hq hl
    rw [Bool.not_not] at hfr
    refine ⟨fun _ => Or.inl ⟨a,rfl⟩,fun _ who => ?_⟩
    by_cases hw : who = a
    · exact hw ▸ hfr.mpr hea
    · exact Bool.eq_not_of_ne hw ▸ heb
  · have heb := h.achieved (!a) base other t.value hb hq hl
    have hfr := h.framed (!a) base other t.value hb hq hl
    rw [Bool.not_not] at hfr
    have hlast : ls.getLast? = some (!a) := by rcases hls with rfl | rfl <;> rfl
    constructor
    · exact fun hall => Or.inr ⟨a,hlast,hfr.mp (hall a)⟩
    · rintro (⟨c,hc⟩ | ⟨c,hc,hce⟩) who
      · rcases hls with rfl | rfl <;> cases a <;> cases c <;> simp at hc
      · rw [hlast] at hc
        have hca : c = a := by simpa using hc.symm
        subst hca
        by_cases hw : who = c
        · exact hw ▸ hfr.mpr hce
        · exact Bool.eq_not_of_ne hw ▸ heb

end YinShu.ReadModifyWrite
