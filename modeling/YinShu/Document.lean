import Mathlib.Data.Rat.Floor
import YinShu.Protocol
import YinShu.TempFile

/-!
# Documents and their normalization to PDF

The format of a document is read from its first bytes. An image becomes a PDF
of one page of the requested paper, with the image fitted into it. The image
decoder and the PDF encoder come from libraries and are given.
-/

set_option autoImplicit false

namespace YinShu.Document
open YinShu.Protocol YinShu.ErrorState YinShu.FileStore YinShu.TempFile

def headerSize : ℕ := 8
def defaultDpi : ℚ := 203

inductive DocumentFormat where
  | pdf
  | png
  | jpeg
  deriving DecidableEq, Repr

structure FitRect where
  x : ℚ
  y : ℚ
  width : ℚ
  height : ℚ
  deriving DecidableEq, Repr

inductive DocumentError where
  | unsupportedFormat
  | invalidImageDimensions
  | io (error : String)
  | image (error : String)
  deriving DecidableEq, Repr

def DocumentError.message : DocumentError → String
  | .unsupportedFormat => "unsupported document format"
  | .invalidImageDimensions => "invalid image dimensions"
  | .io error => error
  | .image error => error

def pdfSignature : Bytes := [0x25,0x50,0x44,0x46,0x2d]
def pngSignature : Bytes := [0x89,0x50,0x4e,0x47,0x0d,0x0a,0x1a,0x0a]
def jpegSignature : Bytes := [0xff,0xd8,0xff]

def detectFormatFromBytes (bytes : Bytes) : Option DocumentFormat :=
  if pdfSignature.isPrefixOf bytes then some .pdf
  else if pngSignature.isPrefixOf bytes then some .png
  else if jpegSignature.isPrefixOf bytes then some .jpeg
  else none

/-- Opening or reading fails, or the read returns some of the first bytes. -/
def detectFormat (read : Except String ℕ) (content : Bytes) :
    Except DocumentError (Option DocumentFormat) :=
  match read with
  | .error error => .error (.io error)
  | .ok bytesRead => .ok (detectFormatFromBytes ((content.take headerSize).take bytesRead))

def fitContain (imageWidth imageHeight pageWidth pageHeight : ℚ) :
    Except DocumentError FitRect :=
  if 0 < imageWidth ∧ 0 < imageHeight ∧ 0 < pageWidth ∧ 0 < pageHeight then
    let scale := min (pageWidth/imageWidth) (pageHeight/imageHeight)
    let width := imageWidth*scale
    let height := imageHeight*scale
    .ok ⟨(pageWidth-width)/2,(pageHeight-height)/2,width,height⟩
  else .error .invalidImageDimensions

inductive ImageFormat where
  | png
  | jpeg
  deriving DecidableEq, Repr

structure DecodedImage where
  width : UInt32
  height : UInt32
  pixels : Bytes
  deriving DecidableEq, Repr

/-- The page of the PDF and the transform of the image on it; translations are in
millimetres. -/
structure ImagePage where
  widthMm : ℚ
  heightMm : ℚ
  translateX : ℚ
  translateY : ℚ
  scaleX : ℚ
  scaleY : ℚ
  dpi : ℚ
  deriving DecidableEq, Repr

def naturalMm (pixels : UInt32) : ℚ := (pixels.toNat : ℚ)*(254/10)/defaultDpi

def imagePage (image : DecodedImage) (paper : EffectivePaper) (fit : FitRect) : ImagePage where
  widthMm := paper.widthMm
  heightMm := paper.heightMm
  translateX := fit.x
  translateY := fit.y
  scaleX := fit.width/naturalMm image.width
  scaleY := fit.height/naturalMm image.height
  dpi := defaultDpi

/-- `header` and `imageHeader` are the two reads of the signature, by the worker
and again by the conversion; `copy` is the copy to the `.pdf` sibling. -/
structure DocumentHost where
  header : Except String ℕ
  imageHeader : Except String ℕ
  openImage : Option String
  decode : ImageFormat → Bytes → Except String DecodedImage
  encode : ImagePage → DecodedImage → Bytes
  write : Option Failure
  copy : Option Failure

variable (host : DocumentHost)

def imageFormat (content : Bytes) : Except DocumentError ImageFormat :=
  match detectFormat host.imageHeader content with
  | .error error => .error error
  | .ok (some .png) => .ok .png
  | .ok (some .jpeg) => .ok .jpeg
  | .ok _ => .error .unsupportedFormat

/-- Everything that the conversion of an image does before it writes. -/
def imageDocument (content : Bytes) (paper : EffectivePaper) : Except DocumentError Bytes :=
  match imageFormat host content with
  | .error error => .error error
  | .ok format =>
    match paper.validate with
    | .error _ => .error .invalidImageDimensions
    | .ok _ =>
      match host.openImage with
      | some error => .error (.io error)
      | none =>
        match host.decode format content with
        | .error error => .error (.image error)
        | .ok image =>
          if image.width = 0 ∨ image.height = 0 then .error .invalidImageDimensions
          else match fitContain image.width.toNat image.height.toNat paper.widthMm
              paper.heightMm with
            | .error error => .error error
            | .ok fit => .ok (host.encode (imagePage image paper fit) image)

def imageToPdf (imagePath : TempPath) (paper : EffectivePaper) (outputPath : TempPath) :
    EStateM DocumentError (Store TempPath) PUnit := do
  let files ← get
  let bytes ← ofExcept (imageDocument host (files.bytes imagePath) paper)
  (write outputPath bytes host.write).adaptExcept .io

theorem imageToPdf_rule (imagePath : TempPath) (paper : EffectivePaper) (outputPath : TempPath)
    (s : Store TempPath) :
    Ensures (imageToPdf host imagePath paper outputPath) s
      (fun _ t => ∃ bytes, imageDocument host (s.bytes imagePath) paper = .ok bytes ∧
        host.write = none ∧ t = s.put outputPath (.file bytes))
      (fun _ t => (∃ error, imageDocument host (s.bytes imagePath) paper = .error error ∧ t = s) ∨
        ∃ bytes error left, imageDocument host (s.bytes imagePath) paper = .ok bytes ∧
          host.write = some ⟨error,left⟩ ∧ t = s.leave outputPath left) := by
  apply ensures_get_bind
  refine (ofExcept_rule _ s).bind ?_ ?_
  · rintro bytes s ⟨hb,rfl⟩
    refine Ensures.adapt ((write_rule s outputPath bytes host.write).mono ?_ ?_)
    · rintro _ t ⟨hw,ht⟩
      exact ⟨bytes,hb,hw,ht⟩
    · rintro error t ⟨left,hw,ht⟩
      exact Or.inr ⟨bytes,error,left,hb,hw,ht⟩
  · rintro error t ⟨hb,ht⟩
    exact Or.inl ⟨error,hb,ht⟩

end YinShu.Document
