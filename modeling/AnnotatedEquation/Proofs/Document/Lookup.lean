/-
AnnotatedEquation/Proofs/Document/Lookup.lean

The documents in LaTeX, as slides and in HTML as guarded values: the text of
each document, and the terms whose colors it looks up, in order.  A document
is refused exactly with the first of these terms that has no color.

The article and the page look up the term order first, then the equation and
the description; the slides begin with the equation, whose terms come again
and again.

Main statements: `Latex.document_guarded`, `Beamer.document_guarded` and
`Html.document_guarded`.
-/
import AnnotatedEquation.Document.Beamer
import AnnotatedEquation.Document.Html
import AnnotatedEquation.Proofs.Palette.Resolution

namespace AnnotatedEquation

open Fragment (writeAll writeAllFrom termsAll)

variable (c : Content) (p : Palette)

/-- The terms of the spans of an equation, in the order in which these
open. -/
def Content.equationTerms : List Text := termsAll (EquationSpan.forest c.equation)

/-- The terms of the spans of a description, in order. -/
def Content.descriptionTerms : List Text := TagStyle.proseSpan.terms c.description

/-- The runs of a description look up the terms of their spans. -/
theorem firstRefusal?_runs (rs : List Run) :
    (rs.findSome? fun run => run.term?.bind (p.refusal? c.termOrder)) =
      p.firstRefusal? c.termOrder (rs.filterMap Run.term?) := by
  induction rs with
  | nil => rfl
  | cons run rs ih =>
    cases run with
    | plain text => exact ih
    | tagged term content =>
      -- a tagged run is refused with its term
      rw [List.findSome?_cons, ih, List.filterMap_cons_some (Run.term?.eq_2 term content),
        Palette.firstRefusal?, Palette.firstRefusal?, List.findSome?_cons]
      rfl

/-! ### LaTeX -/

namespace Latex

/-- What stands before a color and the text in it. -/
def colorCommand : Text := "\\textcolor\x7b".toList

theorem colored_split (color inner : Text) :
    colored color inner = (colorCommand ++ color ++ ['}', '{']) ++ (inner ++ ['}']) := by
  have hassoc : ∀ a b d e f : Text, a ++ b ++ d ++ e ++ f = (a ++ b ++ d) ++ (e ++ f) := by
    intro a b d e f
    simp only [List.append_assoc]
  exact hassoc _ _ _ _ _

/-- What stands before the name of the term in a colored piece. -/
def coloredStart : Text := "\\textcolor\x7bterm".toList

theorem colored_eq (term inner : Text) :
    colored (colorName term) inner =
      coloredStart ++ (term ++ (['}', '{'] ++ (inner ++ ['}']))) := by
  have hassoc : ∀ a b c d e f : Text,
      a ++ (b ++ c) ++ d ++ e ++ f = a ++ b ++ (c ++ (d ++ (e ++ f))) := by
    intro a b c d e f
    simp only [List.append_assoc]
  exact hassoc _ _ _ _ _ _

/-- The text of the equation. -/
def equationText : Text :=
  writeAll (fun term => colored (colorName term)) (EquationSpan.forest c.equation)

/-- The text of a run of the description. -/
def runText : Run → Text
  | .plain text => prose text
  | .tagged term text => colored (colorName term) (prose text)

/-- The text of the description. -/
def descriptionText : Text := Text.trim ((TagStyle.proseSpan.runs c.description).flatMap runText)

/-- The definitions of the colors. -/
def colorLines : List Text :=
  c.termOrder.eraseDups.map fun term => colorDefinition term (p.color c.termOrder term)

theorem colorDefinitions_guarded :
    colorDefinitions c p = guarded (p.firstRefusal? c.termOrder c.termOrder) (colorLines c p) := by
  rw [colorDefinitions, p.termColors_guarded, p.firstRefusal?_eraseDups, colorLines]
  rw [guarded_bind_pure, List.map_map]
  rfl

theorem equation_guarded :
    equation c p = guarded (p.firstRefusal? c.termOrder c.equationTerms) (equationText c) := by
  refine Fragment.paintAll_guarded (fun term => ?_) _
  rw [p.colorFor_guarded]
  exact guarded_bind_pure _ _ _

theorem descriptionRun_guarded (run : Run) :
    descriptionRun c p run = guarded (run.term?.bind (p.refusal? c.termOrder)) (runText run) := by
  cases run with
  | plain text => rfl
  | tagged term text =>
    rw [descriptionRun, p.colorFor_guarded]
    exact guarded_bind_pure _ _ _

theorem description_guarded :
    description c p =
      guarded (p.firstRefusal? c.termOrder c.descriptionTerms) (descriptionText c) := by
  rw [description, mapM_guarded (descriptionRun_guarded c p), firstRefusal?_runs]
  rw [guarded_bind_pure, ← List.flatMap_def]
  rfl

/-- The lines of all definitions. -/
def definitionsText : List Text :=
  c.keptDefinitions.flatMap fun (term, body) => definitionLines term body

/-- The text of the article. -/
def text : Text :=
  Text.unlines (articleLines (escape c.documentTitle) (colorLines c p) (equationText c)
    (descriptionText c) (definitionsText c))

theorem document_guarded :
    document c p =
      guarded (p.firstRefusal? c.termOrder (c.termOrder ++ (c.equationTerms ++ c.descriptionTerms)))
        (text c p) := by
  rw [document, colorDefinitions_guarded, equation_guarded, description_guarded,
    p.firstRefusal?_append, p.firstRefusal?_append]
  rcases p.firstRefusal? c.termOrder c.termOrder with - | failure
  · rcases p.firstRefusal? c.termOrder c.equationTerms with - | failure
    · exact guarded_bind_pure _ _ _
    · rfl
  · rfl

end Latex

/-! ### Slides -/

namespace Beamer

/-- What stands before the number of an anchor in the command that drops
it. -/
def coordinateHead : Text := "\\tikz[baseline,remember picture,overlay] \\coordinate (n".toList

/-- The anchor `n<k>` is dropped by a command that names it. -/
theorem coordinate_eq (k : Nat) :
    coordinate k = coordinateHead ++ (Text.ofNat k ++ [')', ';']) := by
  have hassoc : ∀ (a d e : Text) (c : Char), a ++ (c :: d) ++ e = a ++ [c] ++ (d ++ e) := by
    intro a d e c
    simp
  exact hassoc _ _ _ 'n'

/-- A tagged piece of the equation with its anchor. -/
def anchored (n : Nat) (term inner : Text) : Text :=
  Latex.colored (colorName term) inner ++ coordinate n

theorem next_foldl_add (terms : List Text) (a : Anchors) :
    (terms.foldl Anchors.add a).next = a.next + terms.length := by
  induction terms generalizing a with
  | nil => rfl
  | cons term terms ih =>
    rw [List.foldl_cons, ih, List.length_cons]
    show a.next + 1 + terms.length = a.next + (terms.length + 1)
    omega

/-- **Anchoring a forest** looks up its terms in order, gives every tagged
piece the number of its opening, and collects the numbers under the terms. -/
theorem anchorAll_guarded (fs : List Fragment) (a : Anchors) :
    anchorAll c p a fs =
      guarded (p.firstRefusal? c.termOrder (termsAll fs))
        (writeAllFrom anchored a.next fs, (termsAll fs).foldl Anchors.add a) := by
  induction fs using Fragment.forest_induction generalizing a with
  | nil => simp [anchorAll, Palette.firstRefusal?]
  | plain text fs ih =>
    rw [anchorAll, anchor, Fragment.termsAll_plain, Fragment.writeAllFrom_plain]
    show (anchorAll c p a fs >>= _) = _
    rw [ih]
    exact guarded_bind_pure _ _ _
  | tagged term body fs ihBody ihRest =>
    rw [anchorAll, anchor, p.colorFor_guarded, Fragment.termsAll_tagged,
      Fragment.writeAllFrom_tagged, List.cons_append, Palette.firstRefusal?, List.findSome?_cons]
    -- the pieces inside take the numbers behind that of the piece itself
    have hnext : ((termsAll body).foldl Anchors.add (a.add term)).next =
        a.next + 1 + (termsAll body).length := next_foldl_add _ _
    rcases p.refusal? c.termOrder term with - | failure
    · rw [guarded_none, List.findSome?_append, List.foldl_cons, List.foldl_append]
      show ((anchorAll c p (a.add term) body >>= _) >>= _) = _
      rw [ihBody, Palette.firstRefusal?]
      rcases (termsAll body).findSome? (p.refusal? c.termOrder) with - | failure
      · show (anchorAll c p ((termsAll body).foldl Anchors.add (a.add term)) fs >>= _) = _
        rw [ihRest, hnext]
        exact guarded_bind_pure _ _ _
      · rfl
    · rfl

/-- The text of the equation, and the anchors in it. -/
def equationText : Text × Anchors :=
  (writeAllFrom anchored 0 (EquationSpan.forest c.equation), c.equationTerms.foldl Anchors.add {})

theorem equation_guarded :
    equation c p = guarded (p.firstRefusal? c.termOrder c.equationTerms) (equationText c) :=
  anchorAll_guarded c p _ _

/-- The lines of the slides of all definitions. -/
def definitionsText : List Text :=
  c.keptDefinitions.zipIdx.flatMap fun ((term, body), index) =>
    definitionLines (Latex.escape c.documentTitle) (equationText c).1 (equationText c).2 index term
      body

/-- The text of the slides. -/
def text : Text :=
  Text.unlines (slideLines (Latex.escape c.documentTitle) (Latex.colorLines c p) (equationText c).1
    (Latex.descriptionText c) (definitionsText c))

theorem document_guarded :
    document c p =
      guarded (p.firstRefusal? c.termOrder (c.equationTerms ++ (c.termOrder ++ c.descriptionTerms)))
        (text c p) := by
  rw [document, equation_guarded, Latex.colorDefinitions_guarded, Latex.description_guarded,
    p.firstRefusal?_append, p.firstRefusal?_append]
  rcases p.firstRefusal? c.termOrder c.equationTerms with - | failure
  · rcases p.firstRefusal? c.termOrder c.termOrder with - | failure
    · exact guarded_bind_pure _ _ _
    · rfl
  · rfl

end Beamer

/-! ### HTML -/

namespace Html

variable (math : MathWriter)

/-- The text of the equation. -/
def equationText : Text :=
  writeAll (fun term inner => EquationSpan.write term (Latex.colored (p.color c.termOrder term) inner))
    (EquationSpan.forest c.equation)

/-- The text of a run of the description. -/
def runText : Run → Text
  | .plain text => prose math text
  | .tagged term text =>
    "<span class=\"term-".toList ++ escape term ++ ['"', '>'] ++ prose math text ++ "</span>".toList

/-- The text of the description. -/
def descriptionText : Text := (TagStyle.proseSpan.runs c.description).flatMap (runText math)

theorem equation_guarded :
    equation c p = guarded (p.firstRefusal? c.termOrder c.equationTerms) (equationText c p) := by
  refine Fragment.paintAll_guarded (fun term => ?_) _
  rw [p.colorFor_guarded]
  exact guarded_bind_pure _ _ _

theorem descriptionRun_guarded (run : Run) :
    descriptionRun math c p run =
      guarded (run.term?.bind (p.refusal? c.termOrder)) (runText math run) := by
  cases run with
  | plain text => rfl
  | tagged term text =>
    rw [descriptionRun, p.colorFor_guarded]
    exact guarded_bind_pure _ _ _

theorem description_guarded :
    description math c p =
      guarded (p.firstRefusal? c.termOrder c.descriptionTerms) (descriptionText c math) := by
  rw [description, mapM_guarded (descriptionRun_guarded c p math), firstRefusal?_runs]
  rw [guarded_bind_pure, ← List.flatMap_def]
  rfl

/-- The text of the page. -/
def text : Text :=
  Text.unlines
    (headLines c.documentTitle
      ++ styleLines (c.termOrder.eraseDups.map fun term => (term, p.color c.termOrder term))
      ++ bodyLines c.documentTitle (math true (equationText c p)) (descriptionText c math)
        (definitions math c)
      ++ ["  <script>".toList,
          "    (function() \x7b".toList,
          "      var definitions = ".toList ++ scriptObject (definitions math c) ++ [';']]
      ++ scriptLines)

theorem document_guarded :
    document math c p =
      guarded (p.firstRefusal? c.termOrder (c.termOrder ++ (c.equationTerms ++ c.descriptionTerms)))
        (text c p math) := by
  rw [document, p.termColors_guarded, p.firstRefusal?_eraseDups, equation_guarded,
    description_guarded, p.firstRefusal?_append, p.firstRefusal?_append]
  rcases p.firstRefusal? c.termOrder c.termOrder with - | failure
  · rcases p.firstRefusal? c.termOrder c.equationTerms with - | failure
    · exact guarded_bind_pure _ _ _
    · rfl
  · rfl

end Html

end AnnotatedEquation
