import Mathlib.Data.Rat.Cast.Order
import Mathlib.Tactic.FieldSimp
import Mathlib.Tactic.Linarith
import YinShu.BoxFit
import YinShu.Document

/-!
# Placing an image on a page

The rectangle of an image is the image scaled to the greatest factor under
which it fits the page, and centred. The PDF does not carry the rectangle: it
carries two scale factors relative to the size that the image has at the
default resolution. Both say the same, so that the image is not distorted.
-/

set_option autoImplicit false

namespace YinShu.ImagePlacement
open YinShu.BoxFit YinShu.Protocol YinShu.FileStore YinShu.Document

def rectBox (rect : FitRect) : Box ℚ := ⟨rect.width,rect.height⟩

/-- The rectangle lies on the page, whose lower left corner is the origin. -/
def OnPage (page : Box ℚ) (rect : FitRect) : Prop :=
  0 ≤ rect.x ∧ 0 ≤ rect.y ∧ rect.x+rect.width ≤ page.width ∧ rect.y+rect.height ≤ page.height

structure Placed (image page : Box ℚ) (rect : FitRect) : Prop where
  nonempty : (rectBox rect).Positive
  inside : OnPage page rect
  centred : rect.x = page.width-(rect.x+rect.width) ∧ rect.y = page.height-(rect.y+rect.height)
  undistorted : rect.width/rect.height = image.width/image.height
  touches : rect.width = page.width ∨ rect.height = page.height
  maximal : ∀ other, OnPage page other → (rectBox other).Positive →
    other.width/other.height = image.width/image.height →
      other.width ≤ rect.width ∧ other.height ≤ rect.height

section Fit

variable {image page : Box ℚ}

/-- The image scaled to the greatest factor, with equal margins. -/
def placement (image page : Box ℚ) : FitRect :=
  let fitted := image.scale (fitScale image page)
  ⟨(page.width-fitted.width)/2,(page.height-fitted.height)/2,fitted.width,fitted.height⟩

theorem fitContain_eq (hi : image.Positive) (hp : page.Positive) :
    fitContain image.width image.height page.width page.height = .ok (placement image page) := by
  rw [fitContain,if_pos ⟨hi.1,hi.2,hp.1,hp.2⟩]
  rfl

theorem fitContain_ok {imageWidth imageHeight pageWidth pageHeight : ℚ} {fit : FitRect}
    (h : fitContain imageWidth imageHeight pageWidth pageHeight = .ok fit) :
    (Box.mk imageWidth imageHeight).Positive ∧ (Box.mk pageWidth pageHeight).Positive ∧
      fit = placement ⟨imageWidth,imageHeight⟩ ⟨pageWidth,pageHeight⟩ := by
  unfold fitContain at h
  split at h
  · case isTrue hpos =>
    cases h
    exact ⟨⟨hpos.1,hpos.2.1⟩,hpos.2.2,rfl⟩
  · cases h

theorem ratio_eq_iff {box other : Box ℚ} (hb : box.Positive) (ho : other.Positive) :
    box.width/box.height = other.width/other.height ↔ box.SameShape other := by
  rw [div_eq_div_iff (ne_of_gt hb.2) (ne_of_gt ho.2),Box.SameShape,mul_comm box.height]

theorem placement_onPage (hi : image.Positive) : OnPage page (placement image page) := by
  have hfits : (image.scale (fitScale image page)).FitsIn page := (fitScale_isGreatest hi).1
  obtain ⟨hw,hh⟩ := hfits
  simp only [OnPage,placement]
  exact ⟨by linarith,by linarith,by linarith,by linarith⟩

theorem placement_positive (hi : image.Positive) (hp : page.Positive) :
    (rectBox (placement image page)).Positive :=
  ⟨mul_pos hi.1 (fitScale_pos hi hp),mul_pos hi.2 (fitScale_pos hi hp)⟩

theorem placement_maximal (hi : image.Positive) {other : FitRect} (ho : OnPage page other)
    (hpos : (rectBox other).Positive)
    (hratio : other.width/other.height = image.width/image.height) :
    other.width ≤ (placement image page).width ∧ other.height ≤ (placement image page).height := by
  obtain ⟨hx,hy,hw,hh⟩ := ho
  have hfits : (rectBox other).FitsIn page := ⟨by simp only [rectBox]; linarith,
    by simp only [rectBox]; linarith⟩
  exact fitsIn_fitScale hi ((ratio_eq_iff hpos hi).mp hratio) hfits

theorem placement_placed (hi : image.Positive) (hp : page.Positive) :
    Placed image page (placement image page) where
  nonempty := placement_positive hi hp
  inside := placement_onPage hi
  centred := by
    simp only [placement]
    exact ⟨by ring,by ring⟩
  undistorted := (ratio_eq_iff (placement_positive hi hp) hi).mpr (sameShape_scale _ image)
  touches := fitScale_touches hi
  maximal := fun _ ho hpos hratio => placement_maximal hi ho hpos hratio

end Fit

section Scale

/-- Both factors are one, and the natural size scaled by it is the rectangle. -/
structure Faithful (image : DecodedImage) (fit : FitRect) (page : ImagePage) : Prop where
  equal : page.scaleX = page.scaleY
  width : page.scaleX*naturalMm image.width = fit.width
  height : page.scaleY*naturalMm image.height = fit.height

theorem naturalMm_pos {pixels : UInt32} (h : (0 : ℚ) < pixels.toNat) : 0 < naturalMm pixels := by
  unfold naturalMm defaultDpi
  positivity

/-- One pixel is as large in both directions, so the factor of the rectangle
over the pixels decides the factor over the natural size. -/
theorem scaled_over_natural {pixels : UInt32} (h : (0 : ℚ) < pixels.toNat) (s : ℚ) :
    (pixels.toNat : ℚ)*s/naturalMm pixels = s*defaultDpi/(254/10) := by
  have hne : (pixels.toNat : ℚ) ≠ 0 := ne_of_gt h
  have hdpi : defaultDpi ≠ 0 := by norm_num [defaultDpi]
  unfold naturalMm
  field_simp

theorem imagePage_faithful {image : DecodedImage} {paper : EffectivePaper} {fit : FitRect}
    (h : fitContain image.width.toNat image.height.toNat paper.widthMm paper.heightMm = .ok fit) :
    Faithful image fit (imagePage image paper fit) := by
  obtain ⟨⟨hw,hh⟩,hp,rfl⟩ := fitContain_ok h
  refine ⟨?_,?_,?_⟩
  · simp only [imagePage,placement,Box.scale]
    rw [scaled_over_natural hw,scaled_over_natural hh]
  · exact div_mul_cancel₀ _ (ne_of_gt (naturalMm_pos hw))
  · exact div_mul_cancel₀ _ (ne_of_gt (naturalMm_pos hh))

theorem imageDocument_ok {host : DocumentHost} {content bytes : Bytes} {paper : EffectivePaper}
    (h : imageDocument host content paper = .ok bytes) :
    ∃ format image fit, host.decode format content = .ok image ∧
      fitContain image.width.toNat image.height.toNat paper.widthMm paper.heightMm = .ok fit ∧
      bytes = host.encode (imagePage image paper fit) image := by
  unfold imageDocument at h
  split at h
  · cases h
  split at h
  · cases h
  split at h
  · cases h
  split at h
  · cases h
  split at h
  · cases h
  split at h
  · cases h
  · cases h
    exact ⟨_,_,_,‹_›,‹_›,rfl⟩

end Scale

/-- An image is placed as large as its shape and the page allow, in the middle
of the page, and the PDF of every conversion says so. -/
theorem image_placement :
    (∀ imageWidth imageHeight pageWidth pageHeight : ℚ, 0 < imageWidth → 0 < imageHeight →
      0 < pageWidth → 0 < pageHeight →
        ∃ rect, fitContain imageWidth imageHeight pageWidth pageHeight = .ok rect ∧
          Placed ⟨imageWidth,imageHeight⟩ ⟨pageWidth,pageHeight⟩ rect) ∧
    (∀ (host : DocumentHost) (content bytes : Bytes) (paper : EffectivePaper),
      imageDocument host content paper = .ok bytes →
        ∃ format image fit, host.decode format content = .ok image ∧
          fitContain image.width.toNat image.height.toNat paper.widthMm paper.heightMm = .ok fit ∧
          bytes = host.encode (imagePage image paper fit) image ∧
          Faithful image fit (imagePage image paper fit)) := by
  constructor
  · intro imageWidth imageHeight pageWidth pageHeight hiw hih hpw hph
    have hi : (Box.mk imageWidth imageHeight).Positive := ⟨hiw,hih⟩
    have hp : (Box.mk pageWidth pageHeight).Positive := ⟨hpw,hph⟩
    exact ⟨_,fitContain_eq hi hp,placement_placed hi hp⟩
  · intro host content bytes paper h
    obtain ⟨format,image,fit,hd,hf,hb⟩ := imageDocument_ok h
    exact ⟨format,image,fit,hd,hf,hb,imagePage_faithful hf⟩

theorem image_placement_wide :
    fitContain 200 100 100 100 = .ok ⟨0,25,100,50⟩ ∧
      Placed ⟨200,100⟩ ⟨100,100⟩ ⟨0,25,100,50⟩ := by
  have hfit : fitContain 200 100 100 100 = .ok ⟨0,25,100,50⟩ := by
    decide +kernel
  obtain ⟨rect,hr,hplaced⟩ := image_placement.1 200 100 100 100 (by norm_num) (by norm_num)
    (by norm_num) (by norm_num)
  rw [hfit] at hr
  cases hr
  exact ⟨hfit,hplaced⟩

end YinShu.ImagePlacement
