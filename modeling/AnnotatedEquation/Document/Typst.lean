/-
AnnotatedEquation/Document/Typst.lean

The Typst document of a content.  The color of each term is bound to a
variable, and the color literals that come out of the conversion of the math
are replaced by these variables.

How LaTeX notation is put into Typst notation is a parameter.  A tagged
piece of the equation whose term is not in the term order stays without
color; anything else that has no color is refused.
-/
import AnnotatedEquation.Document.ColorLiteral
import AnnotatedEquation.Document.Latex
import AnnotatedEquation.Formula.Typst

namespace AnnotatedEquation.Typst

/-! ### Math -/

/-- A conversion of math from LaTeX to Typst notation. -/
abbrev MathConverter := Text → Except Failure Text

/-- The conversion by way of formulas. -/
def convertMath : MathConverter := fun latex =>
  (Formula.convert latex).mapError Failure.oddDigit

/-- Prose with inline math. -/
def prose (convert : MathConverter) (s : Text) : Except Failure Text :=
  (InlineMath.read s).renderM escape fun math => do
    return InlineMath.delimited (← convert math)

/-! ### Pieces -/

/-- How the equation, still in LaTeX notation, shows the color of a
term. -/
def dress (c : Content) (p : Palette) (term : Text) : Except Failure (Text → Text) :=
  match p.colorFor c.termOrder term with
  | .ok color => .ok (Latex.colored color)
  | .error (.unknownTerm _) => .ok id
  | .error failure => .error failure

/-- The equation in LaTeX notation with the color of every known term. -/
def coloredEquation (c : Content) (p : Palette) : Except Failure Text :=
  Fragment.paintAll (dress c p) (EquationSpan.forest c.equation)

/-- The equation. -/
def equation (convert : MathConverter) (c : Content) (p : Palette) (colors : Entries Text) :
    Except Failure Text := do
  ColorLiteral.replaceAll true colors (← convert (← coloredEquation c p))

/-- A run of the description. -/
def descriptionRun (convert : MathConverter) (c : Content) (p : Palette) :
    Run → Except Failure Text
  | .plain text => prose convert text
  | .tagged term text => do
    let color ← p.colorFor c.termOrder term
    return "#text(fill: rgb(\"".toList ++ color ++ "\"))[".toList ++ (← prose convert text) ++ [']']

/-- The description. -/
def description (convert : MathConverter) (c : Content) (p : Palette) (colors : Entries Text) :
    Except Failure Text := do
  let runs ← (TagStyle.proseSpan.runs c.description).mapM (descriptionRun convert c p)
  ColorLiteral.replaceAll false colors (Text.trim runs.flatten)

/-- The exported terms with their definitions. -/
def definitions (convert : MathConverter) (c : Content) : Except Failure (Entries Text) :=
  c.keptDefinitions.mapM fun (term, body) => do return (term, ← prose convert body)

/-! ### The document -/

/-- The line that binds a color to the variable of a term. -/
def bindingLine (term color : Text) : Text :=
  "#let ".toList ++ colorName term ++ " = rgb(\"".toList ++ color ++ "\")".toList

/-- The lines of a definition. -/
def definitionLines (term body : Text) : List Text :=
  ["=== #text(fill: ".toList ++ colorName term ++ [')', '['] ++ escape term ++ [']'],
   [], body, []]

/-- The lines of the document from its parts. -/
def documentLines (title : Text) (colors : Entries Text) (equation description : Text)
    (definitions : Entries Text) : List Text :=
  ["#set document(title: [".toList ++ title ++ [']', ')'],
   "#set page(paper: \"a4\")".toList,
   "#set text(font: \"New Computer Modern\", size: 11pt)".toList, [],
   "// Term colors".toList]
  ++ colors.map (fun (term, color) => bindingLine term color)
  ++ [[],
   "= ".toList ++ title, [],
   "== Equation".toList, [],
   "$ ".toList ++ equation ++ " $".toList, [],
   "== Description".toList, [],
   description, [],
   "== Definitions".toList, []]
  ++ definitions.flatMap fun (term, body) => definitionLines term body

/-- The Typst document of a content. -/
def document (convert : MathConverter) (c : Content) (p : Palette) : Except Failure Text := do
  let colors ← p.termColors c.termOrder
  let definitions ← definitions convert c
  let equation ← equation convert c p colors
  let description ← description convert c p colors
  return Text.unlines
    (documentLines (escape c.documentTitle) colors equation description definitions)

end AnnotatedEquation.Typst
