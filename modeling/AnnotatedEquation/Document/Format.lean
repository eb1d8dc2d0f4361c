/-
AnnotatedEquation/Document/Format.lean

The formats of documents, and the document of a content in each of them.
-/
import AnnotatedEquation.Document.Beamer
import AnnotatedEquation.Document.Html
import AnnotatedEquation.Document.Typst

namespace AnnotatedEquation

/-- A format of documents. -/
inductive Format where
  | html
  | latex
  | beamer
  | typst
  deriving DecidableEq, Repr

namespace Format

/-- All formats, in order. -/
def all : List Format := [html, latex, beamer, typst]

/-- The name of a format. -/
def name : Format → Text
  | html => "html".toList
  | latex => "latex".toList
  | beamer => "beamer".toList
  | typst => "typst".toList

/-- The ending of the names of files in a format. -/
def fileExtension : Format → Text
  | html => ".html".toList
  | latex | beamer => ".tex".toList
  | typst => ".typ".toList

/-- The format of a name. -/
def named (name : Text) : Except Failure Format :=
  match all.find? (·.name = name) with
  | some format => .ok format
  | none => .error (.unknownFormat name)

/-- How math is written where a format leaves it open. -/
structure MathStyle where
  html : Html.MathWriter := Html.mathSpan
  typst : Typst.MathConverter := Typst.convertMath

/-- The document of a content in a format. -/
def document (format : Format) (c : Content) (p : Palette) (math : MathStyle := {}) :
    Except Failure Text :=
  match format with
  | html => Html.document math.html c p
  | latex => Latex.document c p
  | beamer => Beamer.document c p
  | typst => Typst.document math.typst c p

end Format

end AnnotatedEquation
