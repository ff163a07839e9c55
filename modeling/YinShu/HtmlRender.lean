import YinShu.Protocol
import YinShu.TempFile

/-!
# The interface of the HTML renderer

Requests to the renderer, its results and its errors, as the worker and the
filtering proxy see them. The browser behind the interface is outside.
-/

set_option autoImplicit false

namespace YinShu.HtmlRender
open YinShu.WebUrl YinShu.Protocol YinShu.FileStore YinShu.TempFile

inductive HtmlSource where
  | url (url : Url)
  | inline (html : String)

structure HtmlRenderRequest where
  source : HtmlSource
  allowedLoopbackOrigin : Option Url
  paper : EffectivePaper
  waitMs : UInt64
  outputPath : TempPath

structure HtmlRenderResult where
  renderer : String
  outputPath : TempPath
  deriving DecidableEq, Repr

/-- Errors of a rendering; the searched browsers and the library errors are kept
as the texts that are shown. -/
inductive HtmlRenderError where
  | rendererUnavailable (searched : String)
  | blockedResource (resource : String)
  | navigation (message : String)
  | timeout (timeoutMs : UInt64)
  | pdfExport (message : String)
  | invalidProxyRequest (reason : String)
  | io (error : String)
  | http (error : String)
  deriving DecidableEq, Repr

def HtmlRenderError.message : HtmlRenderError → String
  | .rendererUnavailable searched =>
    "no installed Chromium-family browser is available; searched: " ++ searched
  | .blockedResource resource => "blocked HTML resource: " ++ resource
  | .navigation message => "browser navigation failed: " ++ message
  | .timeout timeoutMs =>
    "browser rendering timed out after " ++ toString timeoutMs ++ "ms"
  | .pdfExport message => "browser PDF export failed: " ++ message
  | .invalidProxyRequest reason => "invalid proxy request: " ++ reason
  | .io error => "HTML proxy I/O error: " ++ error
  | .http error => "HTML proxy HTTP error: " ++ error

/-- One call of the renderer: its answer, what it leaves at the requested path,
and on success the document at the path it names. -/
structure Rendering where
  result : Except HtmlRenderError HtmlRenderResult
  left : Option Bytes
  pdf : Bytes

def Rendering.store (rendering : Rendering) (outputPath : TempPath) (files : Store TempPath) :
    Store TempPath :=
  match rendering.result with
  | .ok result =>
    (files.leave outputPath rendering.left).put result.outputPath (.file rendering.pdf)
  | .error _ => files.leave outputPath rendering.left

end YinShu.HtmlRender
