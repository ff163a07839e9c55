import Mathlib.Data.Rat.Floor
import YinShu.Protocol

/-!
# Paper sizes and their names

Dimensions in millimetres are exact rationals; the texts that name them are
rounded as the source rounds. The worker and the backends share one format
for a dimension.
-/

set_option autoImplicit false

namespace YinShu.PaperSizes
open YinShu.TextScan YinShu.PrintModel YinShu.Protocol

def roundHalfEven (x : ℚ) : ℤ :=
  let rest := x-x.floor
  if rest < 1/2 then x.floor
  else if 1/2 < rest then x.floor+1
  else if x.floor%2 = 0 then x.floor
  else x.floor+1

def roundHalfAway (x : ℚ) : ℤ :=
  if 0 ≤ x then (x+1/2).floor else -(-x+1/2).floor

/-- The fixed-point texts of precision 0 and 2; both keep the sign of the value. -/
def fixed0 (value : ℚ) : String :=
  (if value < 0 then "-" else "") ++ toString (roundHalfEven |value|).toNat

def fixed2 (value : ℚ) : String :=
  let hundredths := (roundHalfEven (|value| * 100)).toNat
  (if value < 0 then "-" else "") ++ toString (hundredths/100) ++ "." ++
    toString (hundredths%100/10) ++ toString (hundredths%10)

def fract (value : ℚ) : ℚ := if 0 ≤ value then value-value.floor else value+(-value).floor

def formatMm (value : ℚ) : String :=
  if |fract value| < 1/2^52 then fixed0 value
  else trimEndMatches '.' (trimEndMatches '0' (fixed2 value))

/-- The worker's own copy of `format_mm`. -/
def formatPaperDimension (value : ℚ) : String := formatMm value

def standardPaperName (widthMm heightMm : ℚ) : Option String :=
  match roundHalfAway widthMm,roundHalfAway heightMm with
  | 105,148 => some "A6"
  | 148,210 => some "A5"
  | 210,297 => some "A4"
  | 297,420 => some "A3"
  | 216,279 => some "Letter"
  | 216,356 => some "Legal"
  | _,_ => none

def paperName (widthMm heightMm : ℚ) : String :=
  match standardPaperName widthMm heightMm with
  | some name => name
  | none => formatMm widthMm ++ " x " ++ formatMm heightMm ++ " mm"

def paperInfoFromEffective (paper : EffectivePaper) : PaperInfo where
  id := "custom_" ++ formatPaperDimension paper.widthMm ++ "x" ++
    formatPaperDimension paper.heightMm ++ "mm"
  name := paperName paper.widthMm paper.heightMm
  widthMm := paper.widthMm
  heightMm := paper.heightMm

end YinShu.PaperSizes
