/-
AnnotatedEquation/Document/Latex.lean

The LaTeX article of a content: a color definition for each term, the
colored equation, the description and the definitions.

Whatever needs the color of a term is refused with the term if it has none;
colors are looked up for the definitions of the colors first, then for the
equation, then for the description.
-/
import AnnotatedEquation.Escape.InlineMath
import AnnotatedEquation.Escape.Reserved
import AnnotatedEquation.Markup.EquationSpan
import AnnotatedEquation.Markup.ProseSpan
import AnnotatedEquation.Palette.Basic
import AnnotatedEquation.Source.Content
import AnnotatedEquation.Text.Blank

namespace AnnotatedEquation.Latex

/-! ### Pieces -/

/-- Text in the color of a name. -/
def colored (color inner : Text) : Text :=
  "\\textcolor\x7b".toList ++ color ++ ['}', '{'] ++ inner ++ ['}']

/-- The definition of the color of a term. -/
def colorDefinition (term color : Text) : Text :=
  "\\definecolor\x7b".toList ++ colorName term ++ "\x7d\x7bHTML\x7d\x7b".toList
    ++ hexDigits color ++ ['}']

/-- The definitions of the colors of all terms, in term order. -/
def colorDefinitions (c : Content) (p : Palette) : Except Failure (List Text) := do
  let colors ← p.termColors c.termOrder
  return colors.map fun (term, color) => colorDefinition term color

/-- Prose, with its inline math left alone. -/
def prose (s : Text) : Text := (InlineMath.read s).render escape InlineMath.delimited

/-- The equation with every tagged piece in the color of its term. -/
def equation (c : Content) (p : Palette) : Except Failure Text :=
  Fragment.paintAll
    (fun term => do
      let _ ← p.colorFor c.termOrder term
      return colored (colorName term))
    (EquationSpan.forest c.equation)

/-- A run of the description. -/
def descriptionRun (c : Content) (p : Palette) : Run → Except Failure Text
  | .plain text => .ok (prose text)
  | .tagged term text => do
    let _ ← p.colorFor c.termOrder term
    return colored (colorName term) (prose text)

/-- The description with every reference in the color of its term. -/
def description (c : Content) (p : Palette) : Except Failure Text := do
  let runs ← (TagStyle.proseSpan.runs c.description).mapM (descriptionRun c p)
  return Text.trim runs.flatten

/-! ### The article -/

/-- The lines of a definition. -/
def definitionLines (term body : Text) : List Text :=
  ["\\subsection*\x7b".toList ++ colored (colorName term) (escape term) ++ ['}'],
   prose body, []]

/-- The lines of the article from its parts. -/
def articleLines (title : Text) (colors : List Text) (equation description : Text)
    (definitions : List Text) : List Text :=
  ["\\documentclass\x7barticle\x7d".toList, [],
   "\\usepackage[T1]\x7bfontenc\x7d".toList,
   "\\usepackage\x7bamsmath\x7d".toList,
   "\\usepackage\x7bxcolor\x7d".toList, [],
   "% Term colors".toList]
  ++ colors
  ++ [[],
   "\\title\x7b".toList ++ title ++ ['}'],
   "\\date\x7b\x7d".toList, [],
   "\\begin\x7bdocument\x7d".toList,
   "\\maketitle".toList, [],
   "\\section*\x7bEquation\x7d".toList, [],
   "\\begin\x7bequation\x7d".toList,
   equation,
   "\\end\x7bequation\x7d".toList, [],
   "\\section*\x7bDescription\x7d".toList, [],
   description, [],
   "\\section*\x7bDefinitions\x7d".toList, []]
  ++ definitions
  ++ ["\\end\x7bdocument\x7d".toList]

/-- The article of a content. -/
def document (c : Content) (p : Palette) : Except Failure Text := do
  let colors ← colorDefinitions c p
  let equation ← equation c p
  let description ← description c p
  let definitions := c.keptDefinitions.flatMap fun (term, body) => definitionLines term body
  return Text.unlines
    (articleLines (escape c.documentTitle) colors equation description definitions)

end AnnotatedEquation.Latex
