/-
AnnotatedEquation/Proofs/Document/Template.lean

The documents line by line: what is fixed in them is written out here, and
between the fixed lines stand the title, the colors, the equation, the
description and the definitions.

* `Latex.layout` is the article, in which every definition has a heading in
  the color of its term;
* `Beamer.layout` are the slides, and `Beamer.slide` those of a definition,
  with `Beamer.arrow` from the equation to the definition or without one;
* `Html.layout` is the page, in which every definition has a heading in the
  color of its term as well.

Main statements: the documents are laid out this way (`Latex.articleLines_eq`,
`Beamer.slideLines_eq`, `Beamer.definitionLines_eq`, `Html.pageLines_eq`).
-/
import AnnotatedEquation.Proofs.Document.Lookup
import AnnotatedEquation.Proofs.Palette.Hex

namespace AnnotatedEquation

/-! ### The article -/

namespace Latex

/-- Text in the color of a term. -/
def inColor (term inner : Text) : Text :=
  coloredStart ++ term ++ ['}', '{'] ++ inner ++ ['}']

theorem colored_colorName (term inner : Text) : colored (colorName term) inner = inColor term inner := by
  rw [colored_eq, inColor]
  simp only [List.append_assoc]

/-- The definition of the color of a term. -/
def definition (term color : Text) : Text :=
  "\\definecolor\x7bterm".toList ++ term ++ "\x7d\x7bHTML\x7d\x7b".toList ++ hexDigits color ++ ['}']

theorem colorDefinition_eq (term color : Text) : colorDefinition term color = definition term color := by
  have hassoc : ∀ u v w x y : Text,
      u ++ (v ++ term) ++ w ++ x ++ y = (u ++ v) ++ term ++ w ++ x ++ y := by
    intro u v w x y
    simp only [List.append_assoc]
  exact hassoc _ _ _ _ _

/-- The lines of the article in front of the colors. -/
def articleHead : List Text :=
  ["\\documentclass\x7barticle\x7d".toList, [],
   "\\usepackage[T1]\x7bfontenc\x7d".toList,
   "\\usepackage\x7bamsmath\x7d".toList,
   "\\usepackage\x7bxcolor\x7d".toList, [],
   "% Term colors".toList]

/-- The lines between the colors and the body. -/
def titleLines (title : Text) : List Text :=
  [[], "\\title\x7b".toList ++ title ++ ['}'], "\\date\x7b\x7d".toList, []]

/-- The line at which the body begins. -/
def bodyStart : Text := "\\begin\x7bdocument\x7d".toList

/-- The lines of the body in front of the definitions. -/
def frontLines (equation description : Text) : List Text :=
  ["\\maketitle".toList, [],
   "\\section*\x7bEquation\x7d".toList, [],
   "\\begin\x7bequation\x7d".toList,
   equation,
   "\\end\x7bequation\x7d".toList, [],
   "\\section*\x7bDescription\x7d".toList, [],
   description, [],
   "\\section*\x7bDefinitions\x7d".toList, []]

/-- The lines of a definition: a heading in the color of the term, and the
text. -/
def headed (term body : Text) : List Text :=
  ["\\subsection*\x7b".toList ++ inColor term (escape term) ++ ['}'], prose body, []]

/-- The lines of the article. -/
def layout (title : Text) (colors : List Text) (equation description : Text)
    (definitions : Entries Text) : List Text :=
  (articleHead ++ colors ++ titleLines title)
    ++ bodyStart :: (frontLines equation description
      ++ definitions.flatMap (fun e => headed e.1 e.2) ++ ["\\end\x7bdocument\x7d".toList])

theorem definitionLines_eq (term body : Text) : definitionLines term body = headed term body := by
  rw [definitionLines, headed, colored_colorName]

/-- **The article is laid out in its lines.** -/
theorem articleLines_eq (title : Text) (colors : List Text) (equation description : Text)
    (definitions : Entries Text) :
    articleLines title colors equation description
        (definitions.flatMap fun e => definitionLines e.1 e.2) =
      layout title colors equation description definitions := by
  have hassoc : ∀ (head title front last : List Text) (line : Text),
      head ++ colors ++ (title ++ line :: front)
          ++ definitions.flatMap (fun e => definitionLines e.1 e.2) ++ last =
        (head ++ colors ++ title) ++ line :: (front
          ++ definitions.flatMap (fun e => headed e.1 e.2) ++ last) := by
    intro head title front last line
    simp only [definitionLines_eq, List.append_assoc, List.cons_append]
  exact hassoc articleHead (titleLines title) (frontLines equation description) _ bodyStart

end Latex

/-! ### The slides -/

namespace Beamer

/-- The lines of the slides in front of the colors. -/
def slideHead : List Text :=
  ["\\documentclass\x7bbeamer\x7d".toList, [],
   "\\usetheme\x7bdefault\x7d".toList,
   "\\setbeamertemplate\x7bnavigation symbols\x7d\x7b\x7d".toList, [],
   "\\usepackage\x7btikz\x7d".toList,
   "\\usetikzlibrary\x7barrows,shapes,calc\x7d".toList,
   "\\tikzstyle\x7bevery picture\x7d+=[remember picture]".toList,
   "\\tikzstyle\x7bna\x7d = [baseline=-.5ex]".toList, [],
   "\\usepackage\x7bamsmath\x7d".toList,
   "\\usepackage\x7bxcolor\x7d".toList, [],
   "% Term colors".toList]

/-- The lines of the body in front of the slides of the definitions. -/
def overviewLines (latex description : Text) : List Text :=
  [[],
   "\\begin\x7bframe\x7d".toList,
   "\\titlepage".toList,
   "\\end\x7bframe\x7d".toList, [],
   "\\begin\x7bframe\x7d[label=overview]".toList,
   "\\frametitle\x7bEquation\x7d".toList, [],
   "\\begin\x7bequation*\x7d".toList,
   latex,
   "\\end\x7bequation*\x7d".toList, [],
   "\\vspace\x7b1em\x7d".toList, [],
   description, [],
   "\\end\x7bframe\x7d".toList, []]

/-- The lines of the slides, with those of each definition on their own. -/
def layout (title : Text) (colors : List Text) (latex description : Text)
    (frames : List (List Text)) : List Text :=
  (slideHead ++ colors ++ Latex.titleLines title)
    ++ Latex.bodyStart :: (overviewLines latex description ++ frames.flatten
      ++ ["\\end\x7bdocument\x7d".toList])

/-- The lines that draw the arrow of the `j`-th definition, from the anchor
`n<k>` in the equation to the anchor `def<j>` in the slide. -/
def arrow (term : Text) (k j : Nat) : List Text :=
  ["\\begin\x7btikzpicture\x7d[overlay,remember picture]".toList,
   "  \\draw[->,term".toList ++ term ++ ",line width=1.5pt,rounded corners=5pt] ($(n".toList
     ++ Text.ofNat k ++ ")+(-0.3em,-0.2em)$) -- ++(0,-0.6) -| (def".toList ++ Text.ofNat j
     ++ [')', ';'],
   "\\end\x7btikzpicture\x7d".toList]

/-- The lines of the slide of the `j`-th definition before its arrow.  The
anchor `def<j>` stands in them. -/
def slideStart (title latex : Text) (j : Nat) (term body : Text) : List Text :=
  ["\\begin\x7bframe\x7d[label=term".toList ++ Text.ofNat j ++ [']'],
   "\\frametitle\x7b".toList ++ title ++ ['}'], [],
   "\\begin\x7bequation*\x7d".toList,
   latex,
   "\\end\x7bequation*\x7d".toList, [],
   "\\vspace\x7b0.5em\x7d".toList, [],
   "\\begin\x7bblock\x7d\x7b".toList ++ Latex.inColor term (Latex.escape term) ++ ['}'],
   "\\tikz[na] \\coordinate (def".toList ++ Text.ofNat j ++ [')', ';'],
   Latex.prose body,
   "\\end\x7bblock\x7d".toList, []]

/-- The lines of the slide of a definition behind its arrow. -/
def slideEnd : List Text := [[], "\\end\x7bframe\x7d".toList, []]

/-- The slide of a definition, for the number of the anchor that its arrow is
drawn from, if it has one. -/
def slide (title latex : Text) (source : Option Nat) (j : Nat) (term body : Text) : List Text :=
  slideStart title latex j term body ++ (source.map fun k => arrow term k j).getD [] ++ slideEnd

/-- **The slides are laid out in their lines.** -/
theorem slideLines_eq (title : Text) (colors : List Text) (latex description : Text)
    (frames : List (List Text)) :
    slideLines title colors latex description frames.flatten =
      layout title colors latex description frames := by
  have hassoc : ∀ (head title front last : List Text) (line : Text),
      head ++ colors ++ (title ++ line :: front) ++ frames.flatten ++ last =
        (head ++ colors ++ title) ++ line :: (front ++ frames.flatten ++ last) := by
    intro head title front last line
    simp only [List.append_assoc, List.cons_append]
  exact hassoc slideHead (Latex.titleLines title) (overviewLines latex description) _ Latex.bodyStart

/-- **An arrow is drawn from the one anchor to the other.** -/
theorem arrowLines_eq (term : Text) (k j : Nat) : arrowLines term k j = arrow term k j := by
  have hassoc : ∀ u v w x y z : Text,
      u ++ (v ++ term) ++ w ++ 'n' :: Text.ofNat k ++ x ++ (y ++ Text.ofNat j) ++ z =
        (u ++ v) ++ term ++ (w ++ ['n']) ++ Text.ofNat k ++ (x ++ y) ++ Text.ofNat j ++ z := by
    intro u v w x y z
    simp only [List.append_assoc, List.cons_append, List.nil_append]
  exact congrArg (fun line => ["\\begin\x7btikzpicture\x7d[overlay,remember picture]".toList, line,
    "\\end\x7btikzpicture\x7d".toList]) (hassoc _ _ _ _ _ _)

/-- **The slide of a definition is laid out in its lines**, with an arrow from
the first anchor of its term. -/
theorem definitionLines_eq (title latex : Text) (anchors : Anchors) (j : Nat) (term body : Text) :
    definitionLines title latex anchors j term body =
      slide title latex (anchors.first? term) j term body := by
  have hassoc : ∀ u v w : Text, u ++ (v ++ Text.ofNat j) ++ w = (u ++ v) ++ Text.ofNat j ++ w := by
    intro u v w
    simp only [List.append_assoc]
  have hanchor : "\\tikz[na] \\coordinate (".toList ++ definitionAnchorName j ++ [')', ';'] =
      "\\tikz[na] \\coordinate (def".toList ++ Text.ofNat j ++ [')', ';'] := hassoc _ _ _
  simp only [definitionLines, arrowLines_eq]
  rw [Latex.colored_colorName, hanchor]
  rfl

end Beamer

/-! ### The page -/

namespace Html

/-- The lines of the style sheet in front of the colors. -/
def rootLines : List Text :=
  ["  <style>".toList,
   "    :root \x7b".toList,
   "      --bg-color: #ffffff;".toList,
   "      --text-color: #1f2937;".toList,
   "      --border-color: #d1d5db;".toList]

/-- The property that holds the color of a term. -/
def property (term color : Text) : Text :=
  "      --term-".toList ++ escapeSlot term ++ [':', ' '] ++ color ++ [';']

/-- The rule that gives the color to the elements of a term. -/
def rule (term : Text) : Text :=
  "    .term-".toList ++ escapeSlot term ++ " \x7b color: var(--term-".toList ++ escapeSlot term
    ++ "); \x7d".toList

/-- The lines of the body in front of the definitions. -/
def frontLines (title equation description : Text) : List Text :=
  ["</head>".toList,
   "<body>".toList,
   "  <h1>".toList ++ escapeSlot title ++ "</h1>".toList, [],
   "  <div class=\"equation-container\">".toList,
   "    ".toList ++ equation,
   "  </div>".toList, [],
   "  <div class=\"description\">".toList,
   "    <p>".toList ++ description ++ "</p>".toList,
   "  </div>".toList, [],
   "  <div id=\"hover-explanation\" class=\"hover-explanation\"></div>".toList, [],
   "  <div class=\"definitions\">".toList,
   "    <h2>Definitions</h2>".toList]

/-- The lines of a definition: a heading in the color of the term, and the
text. -/
def headed (term html : Text) : List Text :=
  ["    <div class=\"definition\">".toList,
   "      <h3 style=\"color: var(--term-".toList ++ escapeSlot term ++ ");\">".toList
     ++ escapeSlot term ++ "</h3>".toList,
   "      <p>".toList ++ html ++ "</p>".toList,
   "    </div>".toList]

/-- The lines behind the definitions, up to the fixed part of the script. -/
def tableLines (definitions : Entries Text) : List Text :=
  ["  </div>".toList, [],
   "  <script>".toList,
   "    (function() \x7b".toList,
   "      var definitions = ".toList ++ scriptObject definitions ++ [';']]

/-- The lines of the page. -/
def layout (title : Text) (colors : Entries Text) (equation description : Text)
    (definitions : Entries Text) : List Text :=
  headLines title ++ rootLines ++ colors.map (fun e => property e.1 e.2)
    ++ (styleRules ++ colors.map (fun e => rule e.1) ++ printRules
      ++ frontLines title equation description ++ definitions.flatMap (fun e => headed e.1 e.2)
      ++ tableLines definitions ++ scriptLines)

theorem escapeSlot_of_isHexColor {color : Text} (h : isHexColor color) : escapeSlot color = color := by
  have hletters : ∀ c ∈ colorLetters, entity numberedQuote c = [c] := by decide
  calc escapeSlot color
      = color.flatMap fun c => [c] :=
        List.flatMap_congr fun c hc => hletters c (mem_colorLetters_of_isHexColor h c hc)
    _ = color := List.flatMap_singleton' color

/-- The properties of hexadecimal colors need no entities. -/
theorem colorProperty_of_isHexColor {term color : Text} (h : isHexColor color) :
    colorProperty term color = property term color := by
  unfold colorProperty property
  rw [escapeSlot_of_isHexColor h]

/-- **The page is laid out in its lines**, if the colors are hexadecimal and
so need no entities. -/
theorem pageLines_eq (title : Text) {colors : Entries Text} (equation description : Text)
    (definitions : Entries Text) (hcolors : ∀ e ∈ colors, isHexColor e.2) :
    headLines title ++ styleLines colors ++ bodyLines title equation description definitions
        ++ ["  <script>".toList,
            "    (function() \x7b".toList,
            "      var definitions = ".toList ++ scriptObject definitions ++ [';']]
        ++ scriptLines =
      layout title colors equation description definitions := by
  have hproperties : colors.map (fun e => colorProperty e.1 e.2) =
      colors.map fun e => property e.1 e.2 :=
    List.map_congr_left fun e he => colorProperty_of_isHexColor (hcolors e he)
  have hstyle : styleLines colors = rootLines ++ colors.map (fun e => property e.1 e.2)
      ++ styleRules ++ colors.map (fun e => rule e.1) ++ printRules := by
    rw [← hproperties]
    rfl
  have hbody : bodyLines title equation description definitions =
      frontLines title equation description ++ definitions.flatMap (fun e => headed e.1 e.2)
        ++ ["  </div>".toList, []] := rfl
  have hassoc : ∀ head root properties rules colors print front headings close script last : List Text,
      head ++ (root ++ properties ++ rules ++ colors ++ print) ++ (front ++ headings ++ close)
          ++ script ++ last =
        head ++ root ++ properties
          ++ (rules ++ colors ++ print ++ front ++ headings ++ (close ++ script) ++ last) := by
    intros
    simp only [List.append_assoc]
  rw [hstyle, hbody]
  exact hassoc _ _ _ _ _ _ _ _ _ _ _

end Html

end AnnotatedEquation
