import YinShu.ErrorState

/-!
# Fallback chains

Candidates are tried in order until one succeeds. An attempt may report that
the candidate does not apply, which hands over to the next one, or end the
whole chain with an error. The attempts see the reasons collected so far, and
the state passes through all of them.
-/

set_option autoImplicit false

namespace YinShu.FallbackChain
open YinShu.ErrorState

universe u
variable {ε σ α ρ β : Type u} (attempt : List ρ → α → EStateM ε σ (Except ρ β))

def firstOf : List α → List ρ → EStateM ε σ (Except (List ρ) (β × α))
  | [],failures => pure (.error failures)
  | a::rest,failures => do
    match ← attempt failures a with
    | .ok b => pure (.ok (b,a))
    | .error failure => firstOf rest (failures++[failure])

/-- The candidates were tried one after the other and none applied. -/
inductive Skipped : σ → List ρ → List α → List ρ → σ → Prop
  | nil (s : σ) (failures : List ρ) : Skipped s failures [] [] s
  | cons {s t u : σ} {failures reasons : List ρ} {a : α} {rest : List α} {reason : ρ}
      (ha : attempt failures a s = .ok (.error reason) t)
      (hr : Skipped t (failures++[reason]) rest reasons u) :
      Skipped s failures (a::rest) (reason::reasons) u

/-- The chain ends normally at the first candidate that applies, or past the last one. -/
def Answered (xs : List α) (failures : List ρ) (s : σ) (t : σ) :
    Except (List ρ) (β × α) → Prop
  | .ok chosen => ∃ before after reasons u, xs = before++chosen.2::after ∧
      Skipped attempt s failures before reasons u ∧
        attempt (failures++reasons) chosen.2 u = .ok (.ok chosen.1) t
  | .error collected => ∃ reasons, Skipped attempt s failures xs reasons t ∧
      collected = failures++reasons

def Stopped (xs : List α) (failures : List ρ) (s : σ) (e : ε) (t : σ) : Prop :=
  ∃ before a after reasons u, xs = before++a::after ∧
    Skipped attempt s failures before reasons u ∧ attempt (failures++reasons) a u = .error e t

variable {attempt} {s t u : σ} {xs : List α} {failures reasons : List ρ} {a : α}

theorem Skipped.length_eq (h : Skipped attempt s failures xs reasons t) :
    reasons.length = xs.length := by
  induction h with
  | nil => rfl
  | cons _ _ ih => simp [ih]

theorem Answered.cons {reason : ρ} {answer : Except (List ρ) (β × α)}
    (ha : attempt failures a s = .ok (.error reason) t)
    (h : Answered attempt xs (failures++[reason]) t u answer) :
    Answered attempt (a::xs) failures s u answer := by
  cases answer with
  | ok chosen =>
    obtain ⟨before,after,reasons,v,rfl,hs,hc⟩ := h
    exact ⟨a::before,after,reason::reasons,v,rfl,.cons ha hs,by simpa using hc⟩
  | error collected =>
    obtain ⟨reasons,hs,rfl⟩ := h
    exact ⟨reason::reasons,.cons ha hs,by simp⟩

theorem Stopped.cons {reason : ρ} {e : ε} (ha : attempt failures a s = .ok (.error reason) t)
    (h : Stopped attempt xs (failures++[reason]) t e u) :
    Stopped attempt (a::xs) failures s e u := by
  obtain ⟨before,b,after,reasons,v,rfl,hs,hb⟩ := h
  exact ⟨a::before,b,after,reason::reasons,v,rfl,.cons ha hs,by simpa using hb⟩

theorem firstOf_rule (xs : List α) (failures : List ρ) (s : σ) :
    Ensures (firstOf attempt xs failures) s
      (fun answer t => Answered attempt xs failures s t answer)
      (fun e t => Stopped attempt xs failures s e t) := by
  induction xs generalizing failures s with
  | nil => exact ensures_pure ⟨[],.nil s failures,by simp⟩
  | cons a xs ih =>
    have hself : Ensures (attempt failures a) s
        (fun result t => attempt failures a s = .ok result t)
        (fun e t => attempt failures a s = .error e t) := by
      unfold Ensures
      split <;> assumption
    refine hself.bind ?_ (fun e t he => ⟨[],a,xs,[],s,rfl,.nil s failures,by simpa using he⟩)
    rintro (reason|b) t ht
    · exact (ih (failures++[reason]) t).mono (fun _ _ h => h.cons ht) (fun _ _ h => h.cons ht)
    · exact ensures_pure ⟨[],xs,[],s,rfl,.nil s failures,by simpa using ht⟩

/-- What every attempt keeps, the chain keeps. -/
theorem firstOf_invariant {I : σ → Prop} {Q : β → σ → Prop} {E : ε → σ → Prop}
    (hattempt : ∀ failures a s, I s → Ensures (attempt failures a) s
      (fun result t => I t ∧ ∀ b, result = .ok b → Q b t) E)
    (xs : List α) (failures : List ρ) (s : σ) (hs : I s) :
    Ensures (firstOf attempt xs failures) s
      (fun answer t => I t ∧ ∀ chosen, answer = .ok chosen → Q chosen.1 t) E := by
  induction xs generalizing failures s with
  | nil => exact ensures_pure ⟨hs,by simp⟩
  | cons a xs ih =>
    refine (hattempt failures a s hs).bind ?_ (fun _ _ h => h)
    rintro (reason|b) t ⟨hi,hq⟩
    · exact ih (failures++[reason]) t hi
    · refine ensures_pure ⟨hi,?_⟩
      rintro chosen ⟨⟩
      exact hq b rfl

end YinShu.FallbackChain
