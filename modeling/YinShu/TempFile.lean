import Mathlib.Data.Nat.Notation
import YinShu.FileStore

/-!
# Temporary files of a job

Every temporary file of a job lies in the temporary directory; its name is a
stem and one extension. The names are made from a clock reading and a random
identifier, which holds no dot. `Deletion` lists the places where the code
deletes such a file or directory.
-/

set_option autoImplicit false

namespace YinShu.TempFile

structure TempPath where
  stem : String
  extension : String
  deriving DecidableEq, Repr

def TempPath.withExtension (path : TempPath) (extension : String) : TempPath :=
  ⟨path.stem,extension⟩

def tempDownloadPath (timestamp : ℕ) (uuid : String) : TempPath :=
  ⟨"yinshu-download-" ++ toString timestamp ++ "-" ++ uuid,"tmp"⟩

def tempRawPath (uuid : String) : TempPath := ⟨"yinshu-raw-" ++ uuid,"bin"⟩

def tempHtmlPath (uuid : String) : TempPath := ⟨"yinshu-html-" ++ uuid,"pdf"⟩

inductive Deletion where
  | partialDownload
  | staleWork | staleOutput | failedStaging | work | output
  | printable | downloaded
  | failedRendering | rendered | requested
  | rawFile
  deriving DecidableEq, Repr

/-- The error of each deletion, if it fails; a missing file is no failure. -/
abbrev Deletions := Deletion → Option String

theorem withExtension_ne {path : TempPath} {extension other : String}
    (h : extension ≠ other) : path.withExtension extension ≠ path.withExtension other := by
  intro he
  exact h (congrArg TempPath.extension he)

theorem withExtension_ne_self {path : TempPath} {extension : String}
    (h : extension ≠ path.extension) : path.withExtension extension ≠ path := by
  intro he
  exact h (congrArg TempPath.extension he)

end YinShu.TempFile
