/-
AnnotatedEquation/Proofs/Document/Refusal.lean

Which contents are refused in which formats.  The page, the article and the
slides look up the same terms, the slides in another order; the Typst
document does not insist on the terms of the equation.

Main statement: `Format.documents_are_refused_together`.
-/
import AnnotatedEquation.Proofs.Document.Colors
import AnnotatedEquation.Proofs.Document.Unconverted

namespace AnnotatedEquation

variable {failure : Failure}
variable {c : Content} {p : Palette}

/-! ### Refusals of terms -/

namespace Palette

variable {order terms : List Text}

/-- What is refused is refused for want of a color. -/
theorem isOfColor_of_firstRefusal? (h : p.firstRefusal? order terms = some failure) :
    failure.IsOfColor := by
  obtain ⟨term, -, hterm⟩ := List.exists_of_findSome?_eq_some h
  by_cases hmem : term ∈ order
  · rcases refusal?_of_mem (p := p) hmem with h | ⟨index, h⟩
    · cases h.symm.trans hterm
    · obtain rfl := Option.some.inj (h.symm.trans hterm)
      trivial
  · obtain rfl := Option.some.inj ((refusal?_of_not_mem hmem).symm.trans hterm)
    trivial

end Palette

namespace Format

/-- Math that is written in some way in HTML, and left as it is in Typst. -/
def plainMath (writer : Html.MathWriter) : MathStyle := { html := writer, typst := Typst.keepMath }

/-- **The documents of a content are refused together.**  The page and the
article are both given, or both refused for want of the same color; the
slides are given exactly if they are.  The Typst document with math left as
it is is given exactly if all terms of the order have colors and all terms of
the description are known: so it is given in place of a page that is refused
only if a term of the equation is unknown, and if none is, it is refused as
the page is. -/
theorem documents_are_refused_together (c : Content) (p : Palette) (writer : Html.MathWriter) :
    (((∃ page, html.document c p (plainMath writer) = .ok page) ∧
        ∃ article, latex.document c p (plainMath writer) = .ok article) ∨
      ∃ failure, failure.IsOfColor ∧ html.document c p (plainMath writer) = .error failure ∧
        latex.document c p (plainMath writer) = .error failure) ∧
    ((∃ slides, beamer.document c p (plainMath writer) = .ok slides) ↔
      ∃ page, html.document c p (plainMath writer) = .ok page) ∧
    ((∀ term ∈ c.termOrder, '\\' ∉ term) →
      ((∃ text, typst.document c p (plainMath writer) = .ok text) ↔
        (∀ term ∈ c.termOrder, ∃ color, p.colorFor c.termOrder term = .ok color) ∧
          ∀ term ∈ c.descriptionTerms, term ∈ c.termOrder) ∧
      ((∃ text, typst.document c p (plainMath writer) = .ok text) →
        (∃ failure, html.document c p (plainMath writer) = .error failure) →
          ∃ term ∈ c.equationTerms, term ∉ c.termOrder) ∧
      ((∀ term ∈ c.equationTerms, term ∈ c.termOrder) →
        ∀ failure, typst.document c p (plainMath writer) = .error failure ↔
          html.document c p (plainMath writer) = .error failure)) := by
  have hpage : html.document c p (plainMath writer) = _ := Html.document_guarded c p writer
  have harticle : latex.document c p (plainMath writer) = _ := Latex.document_guarded c p
  have hslides : beamer.document c p (plainMath writer) = _ := Beamer.document_guarded c p
  rw [hpage, harticle, hslides]
  refine ⟨?_, ?_, fun hnames => ?_⟩
  · simp only [exists_guarded_eq_ok_iff, guarded_eq_error_iff, and_self]
    rcases h : p.firstRefusal? c.termOrder (c.termOrder ++ (c.equationTerms ++ c.descriptionTerms))
      with - | failure
    · exact Or.inl rfl
    · exact Or.inr ⟨failure, Palette.isOfColor_of_firstRefusal? h, rfl⟩
  · -- the same terms are looked up in another order
    simp only [exists_guarded_eq_ok_iff, Palette.firstRefusal?_append, Option.or_eq_none_iff]
    exact and_left_comm
  · have htypst : typst.document c p (plainMath writer) = _ := Typst.document_guarded p hnames
    have hsame : (∀ term ∈ c.equationTerms, term ∈ c.termOrder) →
        p.firstRefusal? c.termOrder (c.termOrder ++ c.descriptionTerms) =
          p.firstRefusal? c.termOrder (c.termOrder ++ (c.equationTerms ++ c.descriptionTerms)) :=
      fun hequation => (Palette.firstRefusal?_order_append hequation _).symm
    rw [htypst]
    simp only [exists_guarded_eq_ok_iff, guarded_eq_error_iff]
    refine ⟨?_, ?_, ?_⟩
    · rw [Palette.firstRefusal?_append, Option.or_eq_none_iff, ← Palette.firstRefusal?_eq_none_iff]
      exact and_congr_right fun horder => Palette.firstRefusal?_eq_none_iff_mem horder
    · rintro hnone ⟨failure, hfailure⟩
      by_contra hknown
      have hall : ∀ term ∈ c.equationTerms, term ∈ c.termOrder := fun term hterm =>
        by_contra fun hunknown => hknown ⟨term, hterm, hunknown⟩
      rw [← hsame hall, hnone] at hfailure
      cases hfailure
    · intro hequation failure
      rw [hsame hequation]

/-- A content in whose equation a term is unknown, with a term order that
repeats a term. -/
def strayContent : Content where
  equation := "\\htmlClass\x7bterm-z\x7d\x7bx\x7d + \\htmlClass\x7bterm-a\x7d\x7by\x7d".toList
  termOrder := [['a'], ['a']]

/-- A content in whose description a term is unknown. -/
def strayReference : Content where
  equation := "\\htmlClass\x7bterm-a\x7d\x7bx\x7d".toList
  description := "The <span class=\"term-z\">sum</span>.".toList
  termOrder := [['a'], ['a']]

theorem documents_are_refused_together_strayContent :
    ((∀ term ∈ strayContent.termOrder, '\\' ∉ term) ∧
      (∃ text, typst.document strayContent singleColor (plainMath Html.mathSpan) = .ok text) ∧
      html.document strayContent singleColor (plainMath Html.mathSpan) =
        .error (.unknownTerm ['z']) ∧
      ∃ term ∈ strayContent.equationTerms, term ∉ strayContent.termOrder) ∧
    (∀ term ∈ strayReference.termOrder, '\\' ∉ term) ∧
      (∀ term ∈ strayReference.equationTerms, term ∈ strayReference.termOrder) ∧
      typst.document strayReference singleColor (plainMath Html.mathSpan) =
        .error (.unknownTerm ['z']) := by
  have hcontent : strayContent.equationTerms = [['z'], ['a']] ∧
      strayContent.descriptionTerms = [] := by decide +kernel
  have hreference : strayReference.equationTerms = [['a']] ∧
      strayReference.descriptionTerms = [['z']] := by decide +kernel
  have hnames : ∀ term ∈ strayContent.termOrder, '\\' ∉ term := by decide
  have hnames' : ∀ term ∈ strayReference.termOrder, '\\' ∉ term := by decide
  have hknown : ∀ term ∈ strayReference.equationTerms, term ∈ strayReference.termOrder := by
    rw [hreference.1]
    decide
  have hpage : html.document strayContent singleColor (plainMath Html.mathSpan) =
      .error (.unknownTerm ['z']) := by
    show Html.document Html.mathSpan strayContent singleColor = _
    rw [Html.document_guarded, hcontent.1, hcontent.2]
    rfl
  have hpage' : html.document strayReference singleColor (plainMath Html.mathSpan) =
      .error (.unknownTerm ['z']) := by
    show Html.document Html.mathSpan strayReference singleColor = _
    rw [Html.document_guarded, hreference.1, hreference.2]
    rfl
  obtain ⟨-, -, htypst⟩ := documents_are_refused_together strayContent singleColor Html.mathSpan
  obtain ⟨hgiven, hunknown, -⟩ := htypst hnames
  obtain ⟨-, -, htypst'⟩ := documents_are_refused_together strayReference singleColor Html.mathSpan
  obtain ⟨-, -, hsame⟩ := htypst' hnames'
  -- the order has one term with one color, and there is no description
  have htext := hgiven.2 ⟨fun term hterm => ⟨"#000000".toList, ?_⟩, by rw [hcontent.2]; decide⟩
  · exact ⟨⟨hnames, htext, hpage, hunknown htext ⟨_, hpage⟩⟩, hnames', hknown,
      (hsame hknown _).2 hpage'⟩
  · obtain rfl : term = ['a'] := by simpa [strayContent] using hterm
    rfl

end Format

end AnnotatedEquation
