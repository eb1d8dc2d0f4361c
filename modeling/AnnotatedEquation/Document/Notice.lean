/-
AnnotatedEquation/Document/Notice.lean

What is told on the way while a source is read and a document is made.
Notices do not bear on the document.
-/
import AnnotatedEquation.Document.Format
import AnnotatedEquation.Text.Quoted

namespace AnnotatedEquation

/-- Something told on the way. -/
inductive Notice where
  /-- A source was read: its title, and how many terms, definitions, errors
  and warnings were found. -/
  | read (title : Option Text) (terms definitions errors warnings : Nat)
  /-- A document is being made with a palette. -/
  | rendering (format : Format) (title : Option Text) (palette : Text)
  /-- A definition is left out of a document. -/
  | skipped (term : Text) (format : Format)
  /-- A piece of an equation stays without color. -/
  | uncolored (term : Text)
  deriving DecidableEq, Repr

namespace Notice

/-- The notice is told even if nobody asked for details. -/
def isWarning : Notice → Bool
  | skipped _ _ => true
  | _ => false

/-- The name of a format in running text. -/
def formatTitle : Format → Text
  | .html => "HTML".toList
  | .latex => "LaTeX".toList
  | .beamer => "Beamer".toList
  | .typst => "Typst".toList

/-- The part of the program that tells the notice. -/
def source : Notice → Text
  | read .. => "eqmark.parser.annotation_parser".toList
  | rendering format .. => "eqmark.renderer.".toList ++ format.name ++ "_renderer".toList
  | skipped .. => "eqmark.renderer.base".toList
  | uncolored _ => "eqmark.renderer.typst_renderer".toList

/-- A title in quotes, or that there is none. -/
def quotedTitle : Option Text → Text
  | some title => Text.quoted title
  | none => "None".toList

/-- The text of a notice. -/
def message : Notice → Text
  | read title terms definitions errors warnings =>
    "Parsed ".toList ++ quotedTitle title ++ [':', ' '] ++ Text.ofNat terms ++ " terms, ".toList
      ++ Text.ofNat definitions ++ " definitions, ".toList ++ Text.ofNat errors
      ++ " errors, ".toList ++ Text.ofNat warnings ++ " warnings".toList
  | rendering format title palette =>
    "Rendering ".toList ++ formatTitle format ++ " for ".toList ++ quotedTitle title
      ++ " with scheme ".toList ++ Text.quoted palette
  | skipped term format =>
    "Skipping definition ".toList ++ Text.quoted term ++ " in ".toList ++ format.name
      ++ " export: term is not marked in the equation".toList
  | uncolored term =>
    "Leaving unknown term ".toList ++ Text.quoted term
      ++ " uncolored in Typst equation".toList

/-- The line of a notice. -/
def line (n : Notice) : Text :=
  (if n.isWarning then "WARNING " else "DEBUG ").toList ++ n.source ++ [':', ' '] ++ n.message

/-- What is told about a source that was read. -/
def ofContent (c : Content) : Notice :=
  .read c.title c.termOrder.length c.definitions.length c.errors.length c.warnings.length

/-- The outcome is a success. -/
def succeeds {α : Type} : Except Failure α → Bool
  | .ok _ => true
  | .error _ => false

/-- What is told while a document is made, up to the point where that
fails if it does. -/
def ofDocument (format : Format) (c : Content) (p : Palette) : List Notice :=
  let rendering := rendering format c.title p.name
  let skips := c.skippedTerms.map (skipped · format)
  match format with
  | .html =>
    if succeeds (p.termColors c.termOrder) then
      if succeeds (Html.equation c p) && succeeds (Html.description Html.mathSpan c p) then
        rendering :: skips
      else [rendering]
    else []
  | .latex => rendering :: skips
  | .beamer => if succeeds (Beamer.equation c p) then rendering :: skips else [rendering]
  | .typst =>
    if succeeds (p.termColors c.termOrder) then
      if succeeds (Typst.definitions Typst.convertMath c) then
        rendering :: skips
          ++ ((Fragment.closingTermsAll (EquationSpan.forest c.equation)).filter
            (· ∉ c.termOrder)).map uncolored
      else rendering :: skips
    else [rendering]

end Notice

end AnnotatedEquation
