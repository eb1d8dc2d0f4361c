/-
AnnotatedEquation/Document/Html.lean

The interactive HTML page of a content.  The colors of the terms are
properties of the style sheet, every element of a term carries the term's
class, and the script highlights them together.

How math is written in HTML is a parameter; `Html.mathSpan` leaves the
typesetting to the page.  Colors are looked up for the style sheet first,
then for the equation, then for the description.
-/
import AnnotatedEquation.Document.Latex
import AnnotatedEquation.Document.PageScript
import AnnotatedEquation.Document.PageStyle
import AnnotatedEquation.Escape.Html

namespace AnnotatedEquation.Html

/-! ### Math -/

/-- How math in LaTeX notation is written, as a display or in a line. -/
abbrev MathWriter := (display : Bool) → Text → Text

/-- Math as an element that the page typesets. -/
def mathSpan : MathWriter := fun display latex =>
  "<span class=\"math ".toList ++ (if display then "math-display" else "math-inline").toList
    ++ ['"', '>'] ++ escapeContent latex ++ "</span>".toList

/-- Prose with inline math. -/
def prose (math : MathWriter) (s : Text) : Text :=
  (InlineMath.read s).render escape (math false)

/-! ### Pieces -/

/-- The equation in LaTeX notation, where every tagged piece keeps its class
and gets the color of its term. -/
def equation (c : Content) (p : Palette) : Except Failure Text :=
  Fragment.paintAll
    (fun term => do
      let color ← p.colorFor c.termOrder term
      return fun inner => EquationSpan.write term (Latex.colored color inner))
    (EquationSpan.forest c.equation)

/-- A run of the description. -/
def descriptionRun (math : MathWriter) (c : Content) (p : Palette) : Run → Except Failure Text
  | .plain text => .ok (prose math text)
  | .tagged term text => do
    let _ ← p.colorFor c.termOrder term
    return "<span class=\"term-".toList ++ escape term ++ ['"', '>'] ++ prose math text
      ++ "</span>".toList

/-- The description, where every reference carries the class of its term. -/
def description (math : MathWriter) (c : Content) (p : Palette) : Except Failure Text := do
  let runs ← (TagStyle.proseSpan.runs c.description).mapM (descriptionRun math c p)
  return runs.flatten

/-- The exported terms with their definitions. -/
def definitions (math : MathWriter) (c : Content) : Entries Text :=
  c.keptDefinitions.map fun (term, body) => (term, prose math body)

/-! ### The table of definitions in the script -/

/-- The code units of a character. -/
def codeUnits (c : Char) : List Nat :=
  let n := c.toNat
  if n < 0x10000 then [n]
  else [0xD800 + (n - 0x10000) / 0x400, 0xDC00 + (n - 0x10000) % 0x400]

/-- A code unit by its four hexadecimal digits. -/
def unitEscape (unit : Nat) : Text := ['\\', 'u'] ++ Text.hexadecimal 4 unit

/-- A character in a string of the script.  What has a meaning in HTML and
what is not printable ASCII is given by code units. -/
def scriptChar (c : Char) : Text :=
  if c = '"' ∨ c = '\\' then ['\\', c]
  else if c = '\n' then ['\\', 'n']
  else if c = '\r' then ['\\', 'r']
  else if c = '\t' then ['\\', 't']
  else if c = '\x08' then ['\\', 'b']
  else if c = '\x0c' then ['\\', 'f']
  else if ' ' ≤ c ∧ c ≤ '~' ∧ c ∉ ['<', '>', '&', '\''] then [c]
  else (codeUnits c).flatMap unitEscape

/-- A string of the script. -/
def scriptString (s : Text) : Text := ['"'] ++ s.flatMap scriptChar ++ ['"']

/-- The table of definitions as an object of the script, sorted by term. -/
def scriptObject (entries : Entries Text) : Text :=
  let sorted := entries.mergeSort fun a b => Text.precedes a.1 b.1
  ['{'] ++ Text.joinWith [',', ' ']
    (sorted.map fun (key, value) => scriptString key ++ [':', ' '] ++ scriptString value) ++ ['}']

/-! ### The page -/

/-- The head of the page up to the style sheet. -/
def headLines (title : Text) : List Text :=
  ["<!DOCTYPE html>".toList,
   "<html lang=\"en\">".toList,
   "<head>".toList,
   "  <meta charset=\"UTF-8\">".toList,
   "  <meta name=\"viewport\" content=\"width=device-width, initial-scale=1.0\">".toList,
   "  <title>".toList ++ escapeSlot title ++ "</title>".toList,
   ("  <link rel=\"stylesheet\" href=\"https://cdn.jsdelivr.net/npm/katex@0.16.25/dist/katex.min"
     ++ ".css\" crossorigin=\"anonymous\">").toList,
   ("  <script src=\"https://cdn.jsdelivr.net/npm/katex@0.16.25/dist/katex.min.js\""
     ++ " crossorigin=\"anonymous\"></script>").toList]

/-- The property that holds the color of a term. -/
def colorProperty (term color : Text) : Text :=
  "      --term-".toList ++ escapeSlot term ++ [':', ' '] ++ escapeSlot color ++ [';']

/-- The rule that colors the elements of a term. -/
def colorRule (term : Text) : Text :=
  "    .term-".toList ++ escapeSlot term ++ " \x7b color: var(--term-".toList ++ escapeSlot term
    ++ "); \x7d".toList

/-- The style sheet. -/
def styleLines (colors : Entries Text) : List Text :=
  ["  <style>".toList,
   "    :root \x7b".toList,
   "      --bg-color: #ffffff;".toList,
   "      --text-color: #1f2937;".toList,
   "      --border-color: #d1d5db;".toList]
  ++ colors.map (fun (term, color) => colorProperty term color)
  ++ styleRules
  ++ colors.map (fun (term, _) => colorRule term)
  ++ printRules

/-- The lines of a definition. -/
def definitionLines (term html : Text) : List Text :=
  ["    <div class=\"definition\">".toList,
   "      <h3 style=\"color: var(--term-".toList ++ escapeSlot term ++ ");\">".toList
     ++ escapeSlot term ++ "</h3>".toList,
   "      <p>".toList ++ html ++ "</p>".toList,
   "    </div>".toList]

/-- The body of the page up to the script. -/
def bodyLines (title equation description : Text) (definitions : Entries Text) : List Text :=
  ["</head>".toList,
   "<body>".toList,
   "  <h1>".toList ++ escapeSlot title ++ "</h1>".toList, [],
   "  <div class=\"equation-container\">".toList,
   "    ".toList ++ equation,
   "  </div>".toList, [],
   "  <div class=\"description\">".toList,
   "    <p>".toList ++ description ++ "</p>".toList,
   "  </div>".toList, [],
   "  <div id=\"hover-explanation\" class=\"hover-explanation\"></div>".toList, [],
   "  <div class=\"definitions\">".toList,
   "    <h2>Definitions</h2>".toList]
  ++ definitions.flatMap (fun (term, html) => definitionLines term html)
  ++ ["  </div>".toList, []]

/-- The page of a content. -/
def document (math : MathWriter) (c : Content) (p : Palette) : Except Failure Text := do
  let colors ← p.termColors c.termOrder
  let equation ← equation c p
  let description ← description math c p
  let definitions := definitions math c
  return Text.unlines
    (headLines c.documentTitle
      ++ styleLines colors
      ++ bodyLines c.documentTitle (math true equation) description definitions
      ++ ["  <script>".toList,
          "    (function() \x7b".toList,
          "      var definitions = ".toList ++ scriptObject definitions ++ [';']]
      ++ scriptLines)

end AnnotatedEquation.Html
