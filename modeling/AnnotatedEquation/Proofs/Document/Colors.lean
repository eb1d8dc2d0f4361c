/-
AnnotatedEquation/Proofs/Document/Colors.lean

Which sources have colors for all their terms, whatever the format.

The reader, the cross-check and the documents each find the terms of a
source in their own way: in the lines, in the drafts, and in the spans of the
equation and of the description.  Where they find the same terms, a valid
source is refused by no document for want of a color, and a palette that is
too short is found out at the same term by all of them, although the slides
begin with the equation and the others with the term order.

Main statements: `Format.documents_agree_on_colors`, and for a span whose
opening is spread over two lines of the description
`Format.spread_span_is_refused`.
-/
import AnnotatedEquation.Document.Format
import AnnotatedEquation.Palette.Builtin
import AnnotatedEquation.Proofs.Document.Sparing
import AnnotatedEquation.Proofs.Source.Description
import AnnotatedEquation.Proofs.Source.Equation

namespace AnnotatedEquation

variable {source : Text} {p : Palette}

namespace Source

/-- The spans of the equation carry the terms of the marks. -/
theorem equationTerms_read (hclean : ¬ EquationSpan.opening <:+: source)
    (hnames : ∀ line ∈ blockLines source, ∀ name ∈ Mark.siteNames line, name.getLast? ≠ some '\\') :
    (Content.read source).equationTerms = Fragment.termsAll (forest source) := by
  rw [Content.equationTerms, forest_equation_read hclean hnames, Fragment.termsAll_tidyAll]

end Source

namespace Format

/-! ### Palettes that are long enough -/

/-- A document other than Typst that speaks of terms of the order alone is
given. -/
theorem exists_document_eq_ok {c : Content} (hsize : c.termOrder.length ≤ p.size)
    (hequation : ∀ term ∈ c.equationTerms, term ∈ c.termOrder)
    (hdescription : ∀ term ∈ c.descriptionTerms, term ∈ c.termOrder) {format : Format}
    (hformat : format ≠ typst) (math : MathStyle) :
    ∃ text, format.document c p math = .ok text := by
  have horder : ∀ term ∈ c.termOrder ++ (c.equationTerms ++ c.descriptionTerms),
      term ∈ c.termOrder := by
    intro term hterm
    simp only [List.mem_append] at hterm
    rcases hterm with h | h | h
    exacts [h, hequation term h, hdescription term h]
  have hslides : ∀ term ∈ c.equationTerms ++ (c.termOrder ++ c.descriptionTerms),
      term ∈ c.termOrder := by
    intro term hterm
    apply horder
    simp only [List.mem_append] at hterm ⊢
    exact or_left_comm.1 hterm
  cases format with
  | html =>
    refine ⟨Html.text c p math.html, ?_⟩
    show Html.document math.html c p = _
    rw [Html.document_guarded, Palette.guarded_eq_ok hsize horder]
  | latex =>
    refine ⟨Latex.text c p, ?_⟩
    show Latex.document c p = _
    rw [Latex.document_guarded, Palette.guarded_eq_ok hsize horder]
  | beamer =>
    refine ⟨Beamer.text c p, ?_⟩
    show Beamer.document c p = _
    rw [Beamer.document_guarded, Palette.guarded_eq_ok hsize hslides]
  | typst => exact absurd rfl hformat

/-- A document that speaks of terms of the order alone is not refused for
want of a color. -/
theorem spares_document {c : Content} (hsize : c.termOrder.length ≤ p.size)
    (hequation : ∀ term ∈ c.equationTerms, term ∈ c.termOrder)
    (hdescription : ∀ term ∈ c.descriptionTerms, term ∈ c.termOrder) (format : Format)
    (writer : Html.MathWriter) : Spares (format.document c p { html := writer }) := by
  by_cases hformat : format = typst
  · rw [hformat]
    exact Typst.spares_document hsize hdescription
  · obtain ⟨text, htext⟩ :=
      exists_document_eq_ok hsize hequation hdescription hformat { html := writer }
    rw [htext]
    exact spares_ok _

/-! ### Palettes that are too short -/

/-- All documents are refused with the first term beyond the end of the
palette: the terms of the equation, repetitions aside, are the term order. -/
theorem document_eq_paletteTooShort {c : Content}
    (hequation : c.termOrder = c.equationTerms.eraseDups) (h : p.size < c.termOrder.length)
    (format : Format) (math : MathStyle) :
    format.document c p math =
      .error (.paletteTooShort c.termOrder[p.size] p.size p.name p.size) := by
  have hnodup : c.termOrder.Nodup := by
    rw [hequation]
    exact nodup_eraseDups _
  have horder := Palette.firstRefusal?_order hnodup h
  have hterms : p.firstRefusal? c.termOrder c.equationTerms =
      some (.paletteTooShort c.termOrder[p.size] p.size p.name p.size) := by
    rw [← p.firstRefusal?_eraseDups, ← hequation, horder]
  cases format with
  | html =>
    show Html.document math.html c p = _
    rw [Html.document_guarded, p.firstRefusal?_append, horder]
    rfl
  | latex =>
    show Latex.document c p = _
    rw [Latex.document_guarded, p.firstRefusal?_append, horder]
    rfl
  | beamer =>
    show Beamer.document c p = _
    -- the slides begin with the equation, whose first refusal is the same
    rw [Beamer.document_guarded, p.firstRefusal?_append, hterms]
    rfl
  | typst => exact Typst.document_of_refusal math.typst horder

/-! ### All sources -/

/-- **All formats find colors for a valid source, or miss the same one.**  No
document of a valid source whose terms fit into the palette is refused for
want of a color, and all but Typst are given; if the palette is too short,
every document is refused with the first term beyond its end, whether the
source is valid or not. -/
theorem documents_agree_on_colors (source : Text) (p : Palette)
    (hequation : ¬ EquationSpan.opening <:+: source)
    (hdescription : ¬ ProseSpan.opening <:+: Text.joinWith [' '] (Source.descriptionLines source))
    (hmarked : ∀ line ∈ Source.blockLines source, ∀ name ∈ Mark.siteNames line,
      name.getLast? ≠ some '\\')
    (hreferred : ∀ term ∈ Source.referredTerms source, '"' ∉ term ∧ '>' ∉ term) :
    ((Content.read source).isValid → (Content.read source).termOrder.length ≤ p.size →
      ∀ (format : Format) (writer : Html.MathWriter),
        Spares (format.document (Content.read source) p { html := writer }) ∧
          (format ≠ typst →
            ∃ text, format.document (Content.read source) p { html := writer } = .ok text)) ∧
      ∀ h : p.size < (Content.read source).termOrder.length, ∀ (format : Format) (math : MathStyle),
        format.document (Content.read source) p math =
          .error (.paletteTooShort (Content.read source).termOrder[p.size] p.size p.name p.size) := by
  have hterms := Source.equationTerms_read hequation hmarked
  have horder : (Content.read source).termOrder = (Content.read source).equationTerms.eraseDups := by
    rw [hterms, Source.termOrder_eq_eraseDups]
  constructor
  · intro hvalid hsize format writer
    have hknown : ∀ term ∈ (Content.read source).equationTerms,
        term ∈ (Content.read source).termOrder := by
      intro term hterm
      rw [horder]
      exact List.mem_eraseDups.2 hterm
    have hreferences : ∀ term ∈ (Content.read source).descriptionTerms,
        term ∈ (Content.read source).termOrder := by
      rw [Source.descriptionTerms_read hdescription hreferred]
      exact Source.referred_marked_of_isValid hvalid
    refine ⟨spares_document hsize hknown hreferences format writer, fun hformat => ?_⟩
    exact exists_document_eq_ok hsize hknown hreferences hformat _
  · intro h format math
    exact document_eq_paletteTooShort horder h format math

/-- A source with a mark inside a mark, and references on two lines. -/
def sumSource : Text :=
  Text.unlines <| List.map String.toList
    ["$$", "\\mark[a]\x7bx + \\mark[b]\x7by\x7d\x7d", "$$", "## Description",
     "The [sum]\x7b.a\x7d of", "[parts]\x7b.b\x7d.", "## .a", "Alpha.", "## .b", "Beta."]

/-- A palette with one color. -/
def singleColor : Palette := ⟨"Single".toList, ["#000000".toList], by decide⟩

theorem documents_agree_on_colors_sumSource :
    (¬ EquationSpan.opening <:+: sumSource ∧
      ¬ ProseSpan.opening <:+: Text.joinWith [' '] (Source.descriptionLines sumSource) ∧
      (∀ line ∈ Source.blockLines sumSource, ∀ name ∈ Mark.siteNames line,
        name.getLast? ≠ some '\\') ∧
      ∀ term ∈ Source.referredTerms sumSource, '"' ∉ term ∧ '>' ∉ term) ∧
      (∃ text, beamer.document (Content.read sumSource) Palette.vibrant = .ok text) ∧
      beamer.document (Content.read sumSource) singleColor =
        .error (.paletteTooShort ['b'] 1 "Single".toList 1) := by
  have hsource : ¬ EquationSpan.opening <:+: sumSource ∧
      ¬ ProseSpan.opening <:+: Text.joinWith [' '] (Source.descriptionLines sumSource) ∧
      (∀ line ∈ Source.blockLines sumSource, ∀ name ∈ Mark.siteNames line,
        name.getLast? ≠ some '\\') ∧
      ∀ term ∈ Source.referredTerms sumSource, '"' ∉ term ∧ '>' ∉ term := by decide +kernel
  obtain ⟨hequation, hdescription, hmarked, hreferred⟩ := hsource
  have hcontent : (Content.read sumSource).isValid ∧
      (Content.read sumSource).termOrder = [['a'], ['b']] := by decide +kernel
  obtain ⟨hvalid, horder⟩ := hcontent
  have hlong := (documents_agree_on_colors sumSource Palette.vibrant hequation hdescription hmarked
    hreferred).1 hvalid (by rw [horder]; decide) beamer Html.mathSpan
  have hshort := (documents_agree_on_colors sumSource singleColor hequation hdescription hmarked
    hreferred).2 (by rw [horder]; decide) beamer {}
  refine ⟨⟨hequation, hdescription, hmarked, hreferred⟩, hlong.2 (by decide), ?_⟩
  -- the palette has one color, and the second term of the order is `b`
  rw [hshort]
  simp only [horder]
  rfl

/-- A description in which the opening of a span is spread over two lines,
which are put together with a blank between them. -/
def spreadSource : Text :=
  Text.unlines <| List.map String.toList
    ["$$", "\\mark[a]\x7bx\x7d", "$$", "## Description", "<span", "class=\"term-b\">hi</span>",
     "## .a", "Alpha."]

/-- The source as a whole may hold no opening of a span, and yet a valid
source is refused for want of a color. -/
theorem spread_span_is_refused :
    (¬ EquationSpan.opening <:+: spreadSource ∧ ¬ ProseSpan.opening <:+: spreadSource ∧
      (∀ line ∈ Source.blockLines spreadSource, ∀ name ∈ Mark.siteNames line,
        name.getLast? ≠ some '\\') ∧
      (∀ term ∈ Source.referredTerms spreadSource, '"' ∉ term ∧ '>' ∉ term) ∧
      (Content.read spreadSource).isValid ∧
      (Content.read spreadSource).termOrder.length ≤ Palette.vibrant.size) ∧
      html.document (Content.read spreadSource) Palette.vibrant = .error (.unknownTerm ['b']) := by
  have hlookups : (Content.read spreadSource).termOrder = [['a']] ∧
      (Content.read spreadSource).equationTerms = [['a']] ∧
      (Content.read spreadSource).descriptionTerms = [['b']] := by decide +kernel
  obtain ⟨horder, hequation, hdescription⟩ := hlookups
  refine ⟨by decide +kernel, ?_⟩
  show Html.document Html.mathSpan (Content.read spreadSource) Palette.vibrant = _
  rw [Html.document_guarded, horder, hequation, hdescription]
  rfl

end Format

end AnnotatedEquation
