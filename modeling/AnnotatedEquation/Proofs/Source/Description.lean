/-
AnnotatedEquation/Proofs/Source/Description.lean

The description of a source, told by the lines of its description sections,
and what the cross-check says about its references.

`Source.descriptionForest` holds the references of all these lines, put
together with blanks between the lines and trimmed.  In the author's writing
it is the joined text of the lines, and in the form that goes to the
documents it is the description of the content.

Main statements: the spans of the description carry the terms of the
references, in order (`Source.descriptionTerms_read`), and in a valid source
all of these are marked (`Source.referred_marked_of_isValid`).
-/
import AnnotatedEquation.Proofs.Document.Lookup
import AnnotatedEquation.Proofs.Markup.ProseBack
import AnnotatedEquation.Proofs.Source.Lines

namespace AnnotatedEquation

open Fragment (EveryAll writeAll termsAll)

/-! ### The lines of a draft -/

theorem Draft.description_ofLines (lines : List Text) :
    (Draft.ofLines lines).description =
      (Source.proseLines false (Source.linesAt false false lines)).map TagStyle.reference.runs := by
  rw [Draft.ofLines, Draft.description_foldl_add]
  rfl

namespace Source

variable (source : Text)

/-! ### The references -/

/-- The terms that the description refers to, with repetitions. -/
def referredTerms : List Text := (descriptionLines source).flatMap TagStyle.reference.terms

/-- The references of the description, one line after the other with blanks
between them, without the blanks at the two ends. -/
def descriptionForest : List Fragment :=
  Fragment.trimAll <| Fragment.joinAll [' '] <|
    (descriptionLines source).map fun line => (TagStyle.reference.runs line).map Run.leaf

theorem writeAll_reference_descriptionForest :
    writeAll Reference.write (descriptionForest source) =
      Text.trim (Text.joinWith [' '] (descriptionLines source)) := by
  rw [descriptionForest, Fragment.writeAll_trimAll Reference.solid_write,
    Fragment.writeAll_joinAll, List.map_map]
  have hline : (writeAll Reference.write ∘ fun line =>
      (TagStyle.reference.runs line).map Run.leaf) = id := by
    funext line
    show writeAll Reference.write ((TagStyle.reference.runs line).map Run.leaf) = line
    rw [writeAll_map_leaf]
    exact TagStyle.written_runs TagStyle.reference line
  rw [hline, List.map_id]

theorem description_read :
    (Content.read source).description = writeAll ProseSpan.write (descriptionForest source) := by
  rw [descriptionForest, Fragment.writeAll_trimAll ProseSpan.solid_write,
    Fragment.writeAll_joinAll, List.map_map]
  show Text.trim (Text.joinWith [' '] ((Draft.ofLines (Text.lines source)).description.map _)) = _
  rw [Draft.description_ofLines, List.map_map]
  have hline : TagStyle.proseSpan.written ∘ TagStyle.reference.runs =
      writeAll ProseSpan.write ∘ fun line => (TagStyle.reference.runs line).map Run.leaf := by
    funext line
    exact (writeAll_map_leaf ProseSpan.write _).symm
  rw [hline]
  rfl

theorem termsAll_descriptionForest : termsAll (descriptionForest source) = referredTerms source := by
  rw [descriptionForest, Fragment.termsAll_trimAll, Fragment.termsAll_joinAll, List.flatMap_map]
  apply List.flatMap_congr
  intro line _
  exact termsAll_map_leaf _

theorem everyAll_descriptionForest :
    EveryAll (fun term body => (term ∈ referredTerms source ∧ '}' ∉ term) ∧
      ∃ display, body = [.plain display]) (descriptionForest source) := by
  rw [descriptionForest, Fragment.everyAll_trimAll]
  apply Fragment.everyAll_joinAll
  intro fs hfs
  obtain ⟨line, hline, rfl⟩ := List.mem_map.1 hfs
  apply everyAll_map_leaf
  intro term display hmem
  obtain ⟨t, rest, -, hread⟩ := TagStyle.exists_read?_of_mem_runs _ hmem
  obtain ⟨name, text, hrun, -, -, -, hbrace⟩ := Reference.read?_eq_some_iff.1 hread
  obtain ⟨rfl, rfl⟩ := Run.tagged.inj hrun
  have hterm : term ∈ TagStyle.reference.terms line :=
    List.mem_filterMap.2 ⟨_, hmem, rfl⟩
  exact ⟨⟨List.mem_flatMap.2 ⟨line, hline, hterm⟩, hbrace⟩, display, rfl⟩

variable {source}

/-- What the author's writing of the description holds stands in the joined
lines. -/
theorem infix_of_infix_descriptionForest {p : Text}
    (h : p <:+: writeAll Reference.write (descriptionForest source)) :
    p <:+: Text.joinWith [' '] (descriptionLines source) := by
  rw [writeAll_reference_descriptionForest] at h
  exact h.trans (Text.isInfix_trim _)

/-- The names of the references fit into spans. -/
theorem everyAll_isNameChar (hnames : ∀ term ∈ referredTerms source, '"' ∉ term ∧ '>' ∉ term) :
    EveryAll (fun term body => (∀ c ∈ term, ProseSpan.isNameChar c) ∧
      ∃ display, body = [.plain display]) (descriptionForest source) := by
  refine (everyAll_descriptionForest source).mono ?_
  rintro term body ⟨⟨hterm, -⟩, hbody⟩
  obtain ⟨hquote, hangle⟩ := hnames term hterm
  refine ⟨fun c hc => ?_, hbody⟩
  have hc₁ : c ≠ '"' := fun h => hquote (h ▸ hc)
  have hc₂ : c ≠ '>' := fun h => hangle (h ▸ hc)
  simp [ProseSpan.isNameChar, hc₁, hc₂]

/-- **The spans of the description carry the terms of the references**, in
order, if the names fit into spans and no opening of a span stands in the
joined lines. -/
theorem descriptionTerms_read
    (hclean : ¬ ProseSpan.opening <:+: Text.joinWith [' '] (descriptionLines source))
    (hnames : ∀ term ∈ referredTerms source, '"' ∉ term ∧ '>' ∉ term) :
    (Content.read source).descriptionTerms = referredTerms source := by
  have hwritten : ¬ ProseSpan.opening <:+: writeAll Reference.write (descriptionForest source) := by
    intro h
    exact hclean (infix_of_infix_descriptionForest h)
  rw [Content.descriptionTerms, description_read,
    ProseSpan.terms_writeAll (everyAll_isNameChar hnames) hwritten, termsAll_descriptionForest]

/-! ### The cross-check -/

theorem referredTerms_ofLines (source : Text) :
    (Draft.ofLines (Text.lines source)).referredTerms = referredTerms source := by
  rw [Draft.referredTerms, Draft.description_ofLines, List.flatMap_map]
  rfl

/-- **In a valid source every reference names a marked term.** -/
theorem referred_marked_of_isValid (h : (Content.read source).isValid) :
    ∀ term ∈ referredTerms source, term ∈ (Content.read source).termOrder := by
  intro term hterm
  by_contra hmarked
  have hmarked' : term ∉ (Draft.ofLines (Text.lines source)).termOrder := hmarked
  -- an unmarked term would be complained about
  have herror : Problem.referredButUnmarked term ∈
      Problem.errors (Draft.ofLines (Text.lines source)).termOrder
        (Draft.ofLines (Text.lines source)).referredTerms
        (Draft.ofLines (Text.lines source)).allDefinitions.keys := by
    rw [Problem.errors, referredTerms_ofLines]
    apply List.mem_append_left
    apply List.mem_map_of_mem
    exact List.mem_filter.2 ⟨List.mem_eraseDups.2 hterm, by simpa using hmarked'⟩
  have hempty : (Content.read source).errors = [] := List.isEmpty_iff.1 h
  have hmessage : Problem.message (.referredButUnmarked term) ∈ (Content.read source).errors :=
    List.mem_map_of_mem herror
  rw [hempty] at hmessage
  cases hmessage

end Source

end AnnotatedEquation
