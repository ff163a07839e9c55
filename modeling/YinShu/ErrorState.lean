import Mathlib.Logic.Basic

/-!
# Programs with state and early return

A program of `EStateM` reads and writes a state and may return early with an
error; the state survives the error. `Ensures` is its weakest precondition:
one condition for the normal result and one for the early return. The rules
below follow the way such programs are put together.
-/

set_option autoImplicit false

namespace YinShu.ErrorState

universe u
variable {ε ε' σ τ α β : Type u}

def Ensures (m : EStateM ε σ α) (s : σ) (Q : α → σ → Prop) (E : ε → σ → Prop) : Prop :=
  match m s with
  | .ok a t => Q a t
  | .error e t => E e t

/-- Runs a program to its end and hands its result on, whether early or not. -/
def attempt (m : EStateM ε σ α) : EStateM ε' σ (Except ε α) := fun s =>
  match m s with
  | .ok a t => .ok (.ok a) t
  | .error e t => .ok (.error e) t

/-- Runs a program and drops its result. -/
def ignore (m : EStateM ε σ α) : EStateM ε' σ PUnit := fun s =>
  match m s with
  | .ok _ t => .ok ⟨⟩ t
  | .error _ t => .ok ⟨⟩ t

/-- Runs a program, then a second one in any case, and returns as the first did. -/
def thenAlways (m : EStateM ε σ α) (after : EStateM ε σ PUnit) : EStateM ε σ α := do
  let result ← attempt m
  after
  ofExcept result

/-- A program on a part of the state. -/
def zoom (get : σ → τ) (set : τ → σ → σ) (m : EStateM ε τ α) : EStateM ε σ α := fun s =>
  match m (get s) with
  | .ok a t => .ok a (set t s)
  | .error e t => .error e (set t s)

/-- A sequence ends normally when its first program does and then its second. -/
theorem bind_ok {m : EStateM ε σ α} {f : α → EStateM ε σ β} {s t : σ} {b : β} :
    (m >>= f) s = .ok b t ↔ ∃ a u, m s = .ok a u ∧ f a u = .ok b t := by
  simp only [Bind.bind,EStateM.bind]
  cases m s with
  | ok a u =>
    constructor
    · exact fun h => ⟨a,u,rfl,h⟩
    · rintro ⟨_,_,⟨⟩,h⟩
      exact h
  | error e u => simp

theorem adaptExcept_ok {f : ε → ε'} {m : EStateM ε σ α} {s t : σ} {a : α} :
    m.adaptExcept f s = .ok a t ↔ m s = .ok a t := by
  unfold EStateM.adaptExcept
  cases m s with
  | ok a u => simp
  | error e u => simp

theorem adaptExcept_bind (f : ε → ε') (m : EStateM ε σ α) (g : α → EStateM ε σ β) :
    (m >>= g).adaptExcept f = m.adaptExcept f >>= fun a => (g a).adaptExcept f := by
  funext s
  simp only [Bind.bind,EStateM.bind,EStateM.adaptExcept]
  cases m s with
  | ok a u => rfl
  | error e u => rfl

/-- What holds of the outcome of a program, in one condition. -/
def Ended (Q : α → σ → Prop) (E : ε → σ → Prop) : Except ε α → σ → Prop
  | .ok a, t => Q a t
  | .error e, t => E e t

section Rules

variable {m : EStateM ε σ α} {s : σ} {Q Q' : α → σ → Prop} {E E' : ε → σ → Prop}

theorem Ensures.mono (h : Ensures m s Q' E') (hQ : ∀ a t, Q' a t → Q a t)
    (hE : ∀ e t, E' e t → E e t) : Ensures m s Q E := by
  unfold Ensures at *
  split <;> simp_all

theorem Ensures.bind {f : α → EStateM ε σ β} {R : β → σ → Prop} {M : α → σ → Prop}
    {N : ε → σ → Prop} (h : Ensures m s M N) (hQ : ∀ a t, M a t → Ensures (f a) t R E)
    (hE : ∀ e t, N e t → E e t) :
    Ensures (m >>= f) s R E := by
  unfold Ensures at h ⊢
  simp only [Bind.bind,EStateM.bind]
  cases hm : m s with
  | ok a t =>
    rw [hm] at h
    exact hQ a t h
  | error e t =>
    rw [hm] at h
    exact hE e t h

theorem Ensures.ok (h : Ensures m s Q E) {a : α} {t : σ} (hm : m s = .ok a t) : Q a t := by
  unfold Ensures at h
  rwa [hm] at h

theorem Ensures.error (h : Ensures m s Q E) {e : ε} {t : σ} (hm : m s = .error e t) : E e t := by
  unfold Ensures at h
  rwa [hm] at h

theorem ensures_true (m : EStateM ε σ α) (s : σ) :
    Ensures m s (fun _ _ => True) (fun _ _ => True) := by
  unfold Ensures
  split <;> trivial

theorem ensures_pure {a : α} (h : Q a s) : Ensures (pure a) s Q E := h

theorem ensures_throw {e : ε} (h : E e s) : Ensures (throw e : EStateM ε σ α) s Q E := h

theorem ensures_modify {f : σ → σ} {Q : PUnit → σ → Prop} (h : Q ⟨⟩ (f s)) :
    Ensures (modify f : EStateM ε σ PUnit) s Q E := h

theorem ensures_get_bind {f : σ → EStateM ε σ β} {R : β → σ → Prop}
    (h : Ensures (f s) s R E) : Ensures (get >>= f) s R E := h

theorem ensures_modify_bind {g : σ → σ} {f : PUnit → EStateM ε σ β} {R : β → σ → Prop}
    (h : Ensures (f ⟨⟩) (g s) R E) :
    Ensures ((modify g : EStateM ε σ PUnit) >>= f) s R E := h

theorem ensures_ok_bind {x : Except ε α} {a : α} {f : α → EStateM ε σ β} {R : β → σ → Prop}
    (hx : x = .ok a) (h : Ensures (f a) s R E) :
    Ensures ((ofExcept x : EStateM ε σ α) >>= f) s R E := by
  subst hx
  exact h

theorem ofExcept_rule (x : Except ε α) (s : σ) :
    Ensures (ofExcept x : EStateM ε σ α) s (fun a t => x = .ok a ∧ t = s)
      (fun e t => x = .error e ∧ t = s) := by
  cases x with
  | ok a => exact ⟨rfl,rfl⟩
  | error e => exact ⟨rfl,rfl⟩

theorem Ensures.attempt {R : Except ε α → σ → Prop} {F : ε' → σ → Prop}
    (h : Ensures m s Q E) (hQ : ∀ a t, Q a t → R (.ok a) t)
    (hE : ∀ e t, E e t → R (.error e) t) :
    Ensures (attempt m : EStateM ε' σ (Except ε α)) s R F := by
  unfold Ensures ErrorState.attempt at *
  cases hm : m s with
  | ok a t => exact hQ a t (by simpa [hm] using h)
  | error e t => exact hE e t (by simpa [hm] using h)

theorem Ensures.attempt_ended (h : Ensures m s Q E) :
    Ensures (ErrorState.attempt m : EStateM ε' σ (Except ε α)) s (Ended Q E)
      (fun _ _ => False) :=
  h.attempt (fun _ _ h => h) (fun _ _ h => h)

theorem Ensures.ignore {R : PUnit → σ → Prop} {F : ε' → σ → Prop} (h : Ensures m s Q E)
    (hQ : ∀ a t, Q a t → R ⟨⟩ t) (hE : ∀ e t, E e t → R ⟨⟩ t) :
    Ensures (ignore m : EStateM ε' σ PUnit) s R F := by
  unfold Ensures ErrorState.ignore at *
  cases hm : m s with
  | ok a t => exact hQ a t (by simpa [hm] using h)
  | error e t => exact hE e t (by simpa [hm] using h)

theorem Ensures.thenAlways {after : EStateM ε σ PUnit} (h : Ensures m s Q' E')
    (hQ : ∀ a t, Q' a t → Ensures after t (fun _ u => Q a u) (fun _ _ => False))
    (hE : ∀ e t, E' e t → Ensures after t (fun _ u => E e u) (fun _ _ => False)) :
    Ensures (thenAlways m after) s Q E := by
  refine Ensures.bind h.attempt_ended ?_ (by simp)
  rintro (e|a) t ht
  · exact (hE e t ht).bind (fun _ u hu => ensures_throw hu) (by simp)
  · exact (hQ a t ht).bind (fun _ u hu => ensures_pure hu) (by simp)

/-- A second program that cannot fail does the same after either return. -/
theorem Ensures.thenCleanup {after : EStateM ε σ PUnit} {R : σ → σ → Prop}
    (h : Ensures m s Q' E') (hR : ∀ t, Ensures after t (fun _ u => R t u) (fun _ _ => False))
    (hQ : ∀ a t u, Q' a t → R t u → Q a u) (hE : ∀ e t u, E' e t → R t u → E e u) :
    Ensures (ErrorState.thenAlways m after) s Q E :=
  h.thenAlways (fun a t ht => (hR t).mono (fun _ u hu => hQ a t u ht hu) (fun _ _ hf => hf.elim))
    (fun e t ht => (hR t).mono (fun _ u hu => hE e t u ht hu) (fun _ _ hf => hf.elim))

theorem Ensures.adapt {f : ε → ε'} {F : ε' → σ → Prop}
    (h : Ensures m s Q (fun e t => F (f e) t)) : Ensures (m.adaptExcept f) s Q F := by
  unfold Ensures EStateM.adaptExcept at *
  cases hm : m s <;> simpa [hm] using h

theorem Ensures.zoom {get : σ → τ} {set : τ → σ → σ} {m : EStateM ε τ α}
    (h : Ensures m (get s) (fun a t => Q a (set t s)) (fun e t => E e (set t s))) :
    Ensures (zoom get set m) s Q E := by
  unfold Ensures ErrorState.zoom at *
  cases hm : m (get s) <;> simpa [hm] using h

end Rules

end YinShu.ErrorState
