import Mathlib.Algebra.Order.Field.Basic
import Mathlib.Order.Bounds.Basic
import Mathlib.Tactic.Ring

/-!
# Fitting a box into a page

A box is scaled by one factor in both directions. Among the factors under which
it fits a page there is a greatest one, the smaller of the two ratios of the
sides. The box of that size touches two opposite sides of the page, and every
box of the same shape that fits the page fits it too.
-/

set_option autoImplicit false

namespace YinShu.BoxFit

structure Box (K : Type*) where
  width : K
  height : K
  deriving DecidableEq, Repr

variable {K : Type*} [Field K]

def Box.scale (s : K) (box : Box K) : Box K := ⟨box.width*s,box.height*s⟩

/-- The two boxes have one aspect ratio. -/
def Box.SameShape (box other : Box K) : Prop := box.width*other.height = box.height*other.width

theorem sameShape_scale (s : K) (box : Box K) : (box.scale s).SameShape box := by
  simp only [Box.SameShape,Box.scale]
  ring

variable [LinearOrder K]

def Box.Positive (box : Box K) : Prop := 0 < box.width ∧ 0 < box.height

def Box.FitsIn (box page : Box K) : Prop := box.width ≤ page.width ∧ box.height ≤ page.height

/-- The smaller of the ratios of the sides. -/
def fitScale (box page : Box K) : K := min (page.width/box.width) (page.height/box.height)

variable {box page : Box K}

theorem fitScale_touches (hb : box.Positive) :
    (box.scale (fitScale box page)).width = page.width ∨
      (box.scale (fitScale box page)).height = page.height := by
  have hw : box.width ≠ 0 := ne_of_gt hb.1
  have hh : box.height ≠ 0 := ne_of_gt hb.2
  rcases min_choice (page.width/box.width) (page.height/box.height) with h | h
  · left
    simp only [Box.scale,fitScale,h]
    exact mul_div_cancel₀ page.width hw
  · right
    simp only [Box.scale,fitScale,h]
    exact mul_div_cancel₀ page.height hh

/-- Boxes of one shape are the scaled copies of one of them. -/
theorem sameShape_iff (hb : box.Positive) (other : Box K) :
    other.SameShape box ↔ ∃ s, other = box.scale s := by
  constructor
  · intro h
    have hw : box.width ≠ 0 := ne_of_gt hb.1
    refine ⟨other.width/box.width,?_⟩
    have hheight : other.height = box.height*(other.width/box.width) := by
      rw [← mul_div_assoc,eq_div_iff hw,mul_comm box.height]
      exact h.symm
    calc other = ⟨other.width,other.height⟩ := rfl
      _ = box.scale (other.width/box.width) := by
        rw [Box.scale,mul_div_cancel₀ other.width hw,← hheight]
  · rintro ⟨s,rfl⟩
    exact sameShape_scale s box

variable [IsStrictOrderedRing K]

theorem scale_fitsIn (hb : box.Positive) (s : K) :
    (box.scale s).FitsIn page ↔ s ≤ fitScale box page := by
  rw [fitScale,le_min_iff,le_div_iff₀ hb.1,le_div_iff₀ hb.2,mul_comm s,mul_comm s]
  rfl

theorem fitScale_isGreatest (hb : box.Positive) :
    IsGreatest {s | (box.scale s).FitsIn page} (fitScale box page) :=
  ⟨(scale_fitsIn hb _).mpr le_rfl,fun s hs => (scale_fitsIn hb s).mp hs⟩

theorem fitScale_pos (hb : box.Positive) (hp : page.Positive) : 0 < fitScale box page :=
  lt_min (div_pos hp.1 hb.1) (div_pos hp.2 hb.2)

/-- Scaled to the greatest factor, the box is at least as large as every box of
its shape that fits the page. -/
theorem fitsIn_fitScale (hb : box.Positive) {other : Box K} (hs : other.SameShape box)
    (hf : other.FitsIn page) : other.FitsIn (box.scale (fitScale box page)) := by
  obtain ⟨s,rfl⟩ := (sameShape_iff hb other).mp hs
  have hle : s ≤ fitScale box page := (fitScale_isGreatest hb).2 hf
  exact ⟨mul_le_mul_of_nonneg_left hle hb.1.le,mul_le_mul_of_nonneg_left hle hb.2.le⟩

end YinShu.BoxFit
