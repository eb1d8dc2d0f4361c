/-
AnnotatedEquation/Document/Beamer.lean

The slides of a content: a title, an overview, and one slide for each
definition, from which an arrow leads to the term's place in the equation.

Each tagged piece of the equation gets an anchor, numbered in the order in
which the pieces open.  `Anchors` collects the numbers under their terms
while the equation is written, so that the slides and the equation speak of
the same anchors.
-/
import AnnotatedEquation.Document.Latex

namespace AnnotatedEquation

/-- The anchors given out so far: the next number, and the numbers under
their terms. -/
structure Anchors where
  next : Nat := 0
  places : Entries (List Nat) := []
  deriving DecidableEq, Repr

namespace Anchors

/-- Gives the next number to a piece of a term. -/
def add (a : Anchors) (term : Text) : Anchors :=
  { next := a.next + 1
    places := a.places.put term ((a.places.get? term).getD [] ++ [a.next]) }

/-- The number of the first piece of a term. -/
def first? (a : Anchors) (term : Text) : Option Nat :=
  (a.places.get? term).bind List.head?

end Anchors

namespace Beamer

/-! ### Anchored equations -/

/-- The name of an anchor in the equation. -/
def anchorName (n : Nat) : Text := 'n' :: Text.ofNat n

/-- The name of the anchor of a definition. -/
def definitionAnchorName (n : Nat) : Text := "def".toList ++ Text.ofNat n

/-- What drops an anchor behind a piece of the equation. -/
def coordinate (n : Nat) : Text :=
  "\\tikz[baseline,remember picture,overlay] \\coordinate (".toList ++ anchorName n ++ [')', ';']

mutual

/-- Writes a fragment, giving anchors to its pieces. -/
def anchor (c : Content) (p : Palette) (a : Anchors) : Fragment → Except Failure (Text × Anchors)
  | .plain text => .ok (text, a)
  | .tagged term body => do
    let _ ← p.colorFor c.termOrder term
    let (inner, after) ← anchorAll c p (a.add term) body
    return (Latex.colored (colorName term) inner ++ coordinate a.next, after)

/-- Writes a forest, giving anchors to its pieces. -/
def anchorAll (c : Content) (p : Palette) (a : Anchors) :
    List Fragment → Except Failure (Text × Anchors)
  | [] => .ok ([], a)
  | f :: fs => do
    let (first, a) ← anchor c p a f
    let (others, a) ← anchorAll c p a fs
    return (first ++ others, a)

end

/-- The equation with an anchor behind every tagged piece, and the
anchors. -/
def equation (c : Content) (p : Palette) : Except Failure (Text × Anchors) :=
  anchorAll c p {} (EquationSpan.forest c.equation)

/-! ### Slides -/

/-- The lines that draw the arrow between a definition and an anchor. -/
def arrowLines (term : Text) (source : Nat) (index : Nat) : List Text :=
  ["\\begin\x7btikzpicture\x7d[overlay,remember picture]".toList,
   "  \\draw[->,".toList ++ colorName term
     ++ ",line width=1.5pt,rounded corners=5pt] ($(".toList ++ anchorName source
     ++ ")+(-0.3em,-0.2em)$) -- ++(0,-0.6) -| (".toList ++ definitionAnchorName index
     ++ [')', ';'],
   "\\end\x7btikzpicture\x7d".toList]

/-- The lines of the slide of a definition. -/
def definitionLines (title equation : Text) (anchors : Anchors) (index : Nat)
    (term body : Text) : List Text :=
  ["\\begin\x7bframe\x7d[label=term".toList ++ Text.ofNat index ++ [']'],
   "\\frametitle\x7b".toList ++ title ++ ['}'], [],
   "\\begin\x7bequation*\x7d".toList,
   equation,
   "\\end\x7bequation*\x7d".toList, [],
   "\\vspace\x7b0.5em\x7d".toList, [],
   "\\begin\x7bblock\x7d\x7b".toList
     ++ Latex.colored (colorName term) (Latex.escape term) ++ ['}'],
   "\\tikz[na] \\coordinate (".toList ++ definitionAnchorName index ++ [')', ';'],
   Latex.prose body,
   "\\end\x7bblock\x7d".toList, []]
  ++ ((anchors.first? term).map fun source => arrowLines term source index).getD []
  ++ [[], "\\end\x7bframe\x7d".toList, []]

/-- The lines of the slides from their parts. -/
def slideLines (title : Text) (colors : List Text) (equation description : Text)
    (definitions : List Text) : List Text :=
  ["\\documentclass\x7bbeamer\x7d".toList, [],
   "\\usetheme\x7bdefault\x7d".toList,
   "\\setbeamertemplate\x7bnavigation symbols\x7d\x7b\x7d".toList, [],
   "\\usepackage\x7btikz\x7d".toList,
   "\\usetikzlibrary\x7barrows,shapes,calc\x7d".toList,
   "\\tikzstyle\x7bevery picture\x7d+=[remember picture]".toList,
   "\\tikzstyle\x7bna\x7d = [baseline=-.5ex]".toList, [],
   "\\usepackage\x7bamsmath\x7d".toList,
   "\\usepackage\x7bxcolor\x7d".toList, [],
   "% Term colors".toList]
  ++ colors
  ++ [[],
   "\\title\x7b".toList ++ title ++ ['}'],
   "\\date\x7b\x7d".toList, [],
   "\\begin\x7bdocument\x7d".toList, [],
   "\\begin\x7bframe\x7d".toList,
   "\\titlepage".toList,
   "\\end\x7bframe\x7d".toList, [],
   "\\begin\x7bframe\x7d[label=overview]".toList,
   "\\frametitle\x7bEquation\x7d".toList, [],
   "\\begin\x7bequation*\x7d".toList,
   equation,
   "\\end\x7bequation*\x7d".toList, [],
   "\\vspace\x7b1em\x7d".toList, [],
   description, [],
   "\\end\x7bframe\x7d".toList, []]
  ++ definitions
  ++ ["\\end\x7bdocument\x7d".toList]

/-- The slides of a content. -/
def document (c : Content) (p : Palette) : Except Failure Text := do
  let (equation, anchors) ← equation c p
  let colors ← Latex.colorDefinitions c p
  let description ← Latex.description c p
  let title := Latex.escape c.documentTitle
  let definitions := c.keptDefinitions.zipIdx.flatMap fun ((term, body), index) =>
    definitionLines title equation anchors index term body
  return Text.unlines (slideLines title colors equation description definitions)

end Beamer

end AnnotatedEquation
