/-
AnnotatedEquation/Proofs/Document/Unconverted.lean

The Typst document where math is left in LaTeX notation.  With no conversion
on its way that can fail, the document is a guarded value as the others are:
it looks up the term order and the description.  The equation is looked up
as well, but it refuses no term that the term order does not refuse, for an
unknown term there stays without color.

Main statement: `Typst.document_guarded`.
-/
import AnnotatedEquation.Document.Typst
import AnnotatedEquation.Proofs.Document.ColorLiteral
import AnnotatedEquation.Proofs.Document.Lookup

namespace AnnotatedEquation.Typst

variable {c : Content} {p : Palette}

/-- The conversion of math that leaves it as it is. -/
def keepMath : MathConverter := .ok

/-! ### Prose -/

/-- Text with inline math is put together again if no math in it is
refused. -/
theorem renderM_eq_ok {writeText w : Text → Text} {writeMath : Text → Except Failure Text}
    (h : ∀ math, writeMath math = .ok (w math)) (m : InlineMath) :
    m.renderM writeText writeMath = .ok (m.render writeText w) := by
  rw [InlineMath.renderM_guarded (r := fun _ => none) h, List.findSome?_eq_none_iff.2 fun _ _ => rfl,
    guarded_none]

/-- Prose with its inline math left alone. -/
def proseText (s : Text) : Text := (InlineMath.read s).render escape InlineMath.delimited

theorem prose_keepMath (s : Text) : prose keepMath s = .ok (proseText s) :=
  renderM_eq_ok (fun _ => rfl) _

variable (c p)

/-- The exported terms with their definitions. -/
def definitionsText : Entries Text :=
  c.keptDefinitions.map fun (term, body) => (term, proseText body)

theorem definitions_keepMath : definitions keepMath c = .ok (definitionsText c) := by
  have hdefinition : ∀ e : Text × Text,
      (do return (e.1, ← prose keepMath e.2) : Except Failure (Text × Text)) =
        guarded none (e.1, proseText e.2) := by
    intro e
    rw [prose_keepMath]
    rfl
  rw [definitions, mapM_guarded (r := fun _ => none) hdefinition,
    List.findSome?_eq_none_iff.2 fun _ _ => rfl]
  rfl

/-! ### The equation -/

/-- The failure of a piece of the equation, which an unknown term does not
cause. -/
def pieceRefusal? (term : Text) : Option Failure :=
  if term ∈ c.termOrder then p.refusal? c.termOrder term else none

/-- A piece of the equation in the color of its term, if the term is
known. -/
def piece (term : Text) : Text → Text :=
  if term ∈ c.termOrder then Latex.colored (p.color c.termOrder term) else id

/-- The equation in LaTeX notation. -/
def coloredText : Text := Fragment.writeAll (piece c p) (EquationSpan.forest c.equation)

theorem dress_guarded (term : Text) :
    dress c p term = guarded (pieceRefusal? c p term) (piece c p term) := by
  rw [dress, p.colorFor_guarded, pieceRefusal?, piece]
  by_cases hterm : term ∈ c.termOrder
  · rw [if_pos hterm, if_pos hterm]
    rcases Palette.refusal?_of_mem (p := p) hterm with h | ⟨index, h⟩
    · rw [h]
      rfl
    · rw [h]
      rfl
  · rw [if_neg hterm, if_neg hterm, Palette.refusal?_of_not_mem hterm]
    rfl

theorem coloredEquation_guarded :
    coloredEquation c p =
      guarded (c.equationTerms.findSome? (pieceRefusal? c p)) (coloredText c p) :=
  Fragment.paintAll_guarded (dress_guarded c p) _

variable {c p}

/-- A term order with all its colors leaves nothing to refuse in the
equation. -/
theorem findSome?_pieceRefusal? (h : p.firstRefusal? c.termOrder c.termOrder = none)
    (terms : List Text) : terms.findSome? (pieceRefusal? c p) = none := by
  rw [Palette.firstRefusal?, List.findSome?_eq_none_iff] at h
  rw [List.findSome?_eq_none_iff]
  intro term _
  rw [pieceRefusal?]
  split
  · next hterm => exact h term hterm
  · rfl

theorem coloredEquation_eq_ok (h : p.firstRefusal? c.termOrder c.termOrder = none) :
    coloredEquation c p = .ok (coloredText c p) := by
  rw [coloredEquation_guarded, findSome?_pieceRefusal? h, guarded_none]

variable (c p)

/-- The terms of the order with their colors. -/
def colorEntries : Entries Text :=
  c.termOrder.eraseDups.map fun term => (term, p.color c.termOrder term)

variable {c}

theorem forall_mem_colorEntries {P : Text → Prop} (h : ∀ term ∈ c.termOrder, P term) :
    ∀ e ∈ colorEntries c p, P e.1 := by
  intro e he
  obtain ⟨term, hterm, rfl⟩ := List.mem_map.1 he
  exact h term (List.mem_eraseDups.1 hterm)

variable {p}

theorem equation_keepMath (hnames : ∀ term ∈ c.termOrder, '\\' ∉ term)
    (h : p.firstRefusal? c.termOrder c.termOrder = none) :
    equation keepMath c p (colorEntries c p) =
      .ok (ColorLiteral.named true (colorEntries c p) (coloredText c p)) := by
  rw [equation, coloredEquation_eq_ok h]
  exact ColorLiteral.replaceAll_eq_ok true (forall_mem_colorEntries p hnames) _

/-! ### The description -/

variable (c p)

/-- The text of a run of the description. -/
def runText : Run → Text
  | .plain text => proseText text
  | .tagged term text =>
    "#text(fill: rgb(\"".toList ++ p.color c.termOrder term ++ "\"))[".toList ++ proseText text
      ++ [']']

theorem descriptionRun_guarded (run : Run) :
    descriptionRun keepMath c p run =
      guarded (run.term?.bind (p.refusal? c.termOrder)) (runText c p run) := by
  cases run with
  | plain text => exact prose_keepMath text
  | tagged term text =>
    rw [descriptionRun, p.colorFor_guarded, prose_keepMath]
    exact guarded_bind_pure _ _ _

/-- The text of the description. -/
def descriptionText : Text :=
  ColorLiteral.named false (colorEntries c p)
    (Text.trim ((TagStyle.proseSpan.runs c.description).flatMap (runText c p)))

variable {c}

theorem description_guarded (hnames : ∀ term ∈ c.termOrder, '\\' ∉ term) :
    description keepMath c p (colorEntries c p) =
      guarded (p.firstRefusal? c.termOrder c.descriptionTerms) (descriptionText c p) := by
  rw [description, mapM_guarded (descriptionRun_guarded c p), firstRefusal?_runs,
    Content.descriptionTerms, TagStyle.terms, descriptionText, List.flatMap_def]
  rcases p.firstRefusal? c.termOrder ((TagStyle.proseSpan.runs c.description).filterMap Run.term?)
    with - | failure
  · exact ColorLiteral.replaceAll_eq_ok false (forall_mem_colorEntries p hnames) _
  · rfl

/-! ### The document -/

variable (c)

/-- The text of the document. -/
def text : Text :=
  Text.unlines (documentLines (escape c.documentTitle) (colorEntries c p)
    (ColorLiteral.named true (colorEntries c p) (coloredText c p)) (descriptionText c p)
    (definitionsText c))

variable {c}

/-- **The document looks up the term order and the description**, if its math
is left as it is and no name of a term holds a backslash. -/
theorem document_guarded (hnames : ∀ term ∈ c.termOrder, '\\' ∉ term) :
    document keepMath c p =
      guarded (p.firstRefusal? c.termOrder (c.termOrder ++ c.descriptionTerms)) (text c p) := by
  rw [document, p.termColors_guarded, p.firstRefusal?_eraseDups, p.firstRefusal?_append,
    definitions_keepMath]
  rcases h : p.firstRefusal? c.termOrder c.termOrder with - | failure
  · have hdescription := description_guarded p hnames
    have hequation := equation_keepMath hnames h
    rw [colorEntries] at hdescription hequation
    show (equation keepMath c p _ >>= fun _ => description keepMath c p _ >>= _) = _
    rw [hequation, hdescription]
    exact guarded_bind_pure _ _ _
  · rfl

end AnnotatedEquation.Typst
