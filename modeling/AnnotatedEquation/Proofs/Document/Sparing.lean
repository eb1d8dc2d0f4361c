/-
AnnotatedEquation/Proofs/Document/Sparing.lean

The Typst document and the colors of its terms.  The conversions on its way
can fail for reasons of their own, so that it is no guarded value; what can
be said is which of its failures are about colors.

Main statements: the document fails as its conversions and its lookups do
(`Typst.failsAs_document`); a palette that is too short for the term order
refuses the document before anything else (`Typst.document_of_refusal`), and
if it is long enough and the description refers to known terms alone, then no
failure is about a color (`Typst.spares_document`).
-/
import AnnotatedEquation.Document.Typst
import AnnotatedEquation.Proofs.Document.Lookup
import AnnotatedEquation.Proofs.Failure

namespace AnnotatedEquation

/-! ### Failures about colors -/

/-- The failure is about the color of a term. -/
def Failure.IsOfColor : Failure → Prop
  | unknownTerm _ | paletteTooShort .. => True
  | _ => False

/-- The computation is not refused for want of a color. -/
def Spares {α : Type} (x : Except Failure α) : Prop := ∀ f, x = .error f → ¬ f.IsOfColor

theorem spares_ok {α : Type} (value : α) : Spares (.ok value : Except Failure α) := nofun

theorem Failure.IsAccident.not_isOfColor {failure : Failure} (h : failure.IsAccident) :
    ¬ failure.IsOfColor := by
  cases failure <;> first | exact id | exact fun _ => h

namespace Typst

variable {P : Failure → Prop}

/-! ### Conversions -/

theorem failsAs_convertMath (latex : Text) : FailsAs Failure.IsAccident (convertMath latex) := by
  rw [convertMath]
  rcases Formula.convert latex with digit | text
  · exact failsAs_error trivial
  · exact failsAs_ok _

theorem failsAs_replaceAll (bare : Bool) (colors : Entries Text) (s : Text) :
    FailsAs Failure.IsAccident (ColorLiteral.replaceAll bare colors s) := by
  rw [ColorLiteral.replaceAll]
  induction colors generalizing s with
  | nil => exact failsAs_ok _
  | cons e colors ih =>
    rw [List.foldlM_cons]
    refine FailsAs.bind ?_ fun s => ih s
    unfold ColorLiteral.replaceTerm
    split
    · exact failsAs_error trivial
    · exact failsAs_ok _

theorem failsAs_prose (s : Text) : FailsAs Failure.IsAccident (prose convertMath s) := by
  rw [prose, InlineMath.renderM]
  have hmath : ∀ math, FailsAs Failure.IsAccident
      (do return InlineMath.delimited (← convertMath math)) := fun math =>
    (failsAs_convertMath math).bind fun _ => failsAs_ok _
  exact (FailsAs.mapM fun piece _ => (hmath piece.1).bind fun _ => failsAs_ok _).bind
    fun _ => failsAs_ok _

/-! ### The document -/

variable {c : Content} {p : Palette}

theorem failsAs_descriptionRun (haccident : ∀ failure : Failure, failure.IsAccident → P failure)
    {run : Run} (h : ∀ term, run.term? = some term → FailsAs P (p.colorFor c.termOrder term)) :
    FailsAs P (descriptionRun convertMath c p run) := by
  cases run with
  | plain text => exact (failsAs_prose text).mono haccident
  | tagged term text =>
    exact (h term rfl).bind fun _ =>
      ((failsAs_prose text).mono haccident).bind fun _ => failsAs_ok _

/-- **The document fails as its conversions and its lookups do**: those of the
term order, of the pieces of the equation, and of the references. -/
theorem failsAs_document (haccident : ∀ failure : Failure, failure.IsAccident → P failure)
    (horder : FailsAs P (p.termColors c.termOrder)) (hdress : ∀ term, FailsAs P (dress c p term))
    (hdescription : ∀ term ∈ c.descriptionTerms, FailsAs P (p.colorFor c.termOrder term)) :
    FailsAs P (document convertMath c p) := by
  have hprose : ∀ s, FailsAs P (prose convertMath s) := fun s => (failsAs_prose s).mono haccident
  have hreplace : ∀ bare colors s, FailsAs P (ColorLiteral.replaceAll bare colors s) :=
    fun bare colors s => (failsAs_replaceAll bare colors s).mono haccident
  have hruns : ∀ run ∈ TagStyle.proseSpan.runs c.description,
      FailsAs P (descriptionRun convertMath c p run) := fun run hrun =>
    failsAs_descriptionRun haccident fun term hterm =>
      hdescription term (List.mem_filterMap.2 ⟨run, hrun, hterm⟩)
  -- definitions, equation and description, in the order in which they are converted
  refine horder.bind fun colors => ?_
  refine FailsAs.bind (FailsAs.mapM fun e _ => ?_) fun definitions => ?_
  · exact (hprose _).bind fun _ => failsAs_ok _
  refine FailsAs.bind ?_ fun equation => FailsAs.bind ?_ fun description => failsAs_ok _
  · have hmath : ∀ latex, FailsAs P (convertMath latex) := fun latex =>
      (failsAs_convertMath latex).mono haccident
    exact (FailsAs.paintAll hdress _).bind fun latex => (hmath latex).bind fun _ => hreplace _ _ _
  · exact (FailsAs.mapM hruns).bind fun _ => hreplace _ _ _

/-- A palette that is long enough refuses no piece of the equation: known
terms have a color, and unknown ones stay without. -/
theorem failsAs_dress (hsize : c.termOrder.length ≤ p.size) (term : Text) :
    FailsAs P (dress c p term) := by
  rw [dress, p.colorFor_guarded]
  by_cases hterm : term ∈ c.termOrder
  · have hrefusal : p.firstRefusal? c.termOrder [term] = none :=
      Palette.firstRefusal?_eq_none hsize (by simpa using hterm)
    have hnone : p.refusal? c.termOrder term = none := by
      simpa [Palette.firstRefusal?] using hrefusal
    rw [hnone]
    exact failsAs_ok _
  -- an unknown term is caught, and its piece stays plain
  · rw [Palette.refusal?_of_not_mem hterm]
    exact failsAs_ok _

/-- A palette that is too short refuses the document with the first term
beyond its end. -/
theorem document_of_refusal {failure : Failure} (convert : MathConverter)
    (h : p.firstRefusal? c.termOrder c.termOrder = some failure) :
    document convert c p = .error failure := by
  rw [document, p.termColors_guarded, p.firstRefusal?_eraseDups, h]
  rfl

/-- **No failure of the document is about a color**, if the palette is long
enough and the description refers to known terms alone. -/
theorem spares_document (hsize : c.termOrder.length ≤ p.size)
    (hterms : ∀ term ∈ c.descriptionTerms, term ∈ c.termOrder) :
    Spares (document convertMath c p) := by
  have hcolors : p.firstRefusal? c.termOrder c.termOrder.eraseDups = none :=
    Palette.firstRefusal?_eq_none hsize fun term h => List.mem_eraseDups.1 h
  have hrefusal := Palette.firstRefusal?_eq_none_iff.1 (Palette.firstRefusal?_eq_none hsize hterms)
  refine failsAs_document (fun failure h => h.not_isOfColor) ?_ (failsAs_dress hsize) ?_
  · rw [p.termColors_guarded, hcolors]
    exact failsAs_ok _
  · intro term hterm
    obtain ⟨color, hcolor⟩ := hrefusal term hterm
    rw [hcolor]
    exact failsAs_ok _

end Typst

end AnnotatedEquation
