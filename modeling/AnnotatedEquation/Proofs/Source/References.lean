/-
AnnotatedEquation/Proofs/Source/References.lean

The references of a source, read back from the spans of its description.

* `TagStyle.rewriteRuns` puts the tagged runs of a text in another writing, and
  does not look into them.

Main statements: the spans written for some references, put in the author's
writing, give what the author wrote (`ProseSpan.rewriteRuns_writeAll`), so that
a description holds all that stands in the description lines of its source
(`Source.rewrite_description_read`).  The opening of a span may be spread over
two lines, which hold a span only when they are put together
(`Source.spread_opening_hides_reference`).
-/
import AnnotatedEquation.Proofs.Source.CrossCheck

namespace AnnotatedEquation

open Fragment (EveryAll writeAll termsAll)

/-! ### Runs in another writing -/

namespace TagStyle

variable (style : TagStyle) {w : Text → Text → Text} {s u v term content rest : Text} {c : Char}

/-- The text with its tagged runs in another writing, their contents as they
are. -/
def rewriteRuns (w : Text → Text → Text) (s : Text) : Text :=
  (style.runs s).flatMap (Run.written w)

theorem flatMap_written_before (w : Text → Text → Text) (run : Run) (rs : List Run) :
    (run.before rs).flatMap (Run.written w) = run.written w ++ rs.flatMap (Run.written w) := by
  cases run <;> rcases rs with - | ⟨- | -, rs⟩ <;> simp [Run.before, Run.written]

@[simp] theorem rewriteRuns_nil : style.rewriteRuns w [] = [] := by
  rw [rewriteRuns, style.runs_nil, List.flatMap_nil]

theorem rewriteRuns_cons (h : style.read? (c :: s) = none) :
    style.rewriteRuns w (c :: s) = c :: style.rewriteRuns w s := by
  rw [rewriteRuns, style.runs_cons h, flatMap_written_before]
  rfl

theorem rewriteRuns_of_tagged (h : style.read? s = some (.tagged term content, rest)) :
    style.rewriteRuns w s = w term content ++ style.rewriteRuns w rest := by
  rw [rewriteRuns, style.runs_of_read? h, flatMap_written_before]
  rfl

/-- A stretch of text in which nothing is recognised stays as it is. -/
theorem rewriteRuns_append (h : ∀ t, t <:+ u → t ≠ [] → style.read? (t ++ v) = none) :
    style.rewriteRuns w (u ++ v) = u ++ style.rewriteRuns w v := by
  induction u with
  | nil => rfl
  | cons c u ih =>
    have hc : style.read? (c :: (u ++ v)) = none := h (c :: u) List.suffix_rfl (by simp)
    have hu := ih fun t ht => h t (ht.trans (List.suffix_cons c u))
    rw [List.cons_append, style.rewriteRuns_cons hc, hu, List.cons_append]

end TagStyle

/-! ### Spans back to references -/

namespace ProseSpan

variable {text term : Text} {fs : List Fragment}

/-- A written span is read as it was written, if its text holds no closing
tag. -/
theorem read?_write (hterm : ∀ c ∈ term, isNameChar c) (htext : ¬ closing <:+: text) (v : Text) :
    read? (write term text ++ v) = some (.tagged term text, v) := by
  refine read?_eq_some_iff.2 ⟨term, text, rfl, rfl, hterm, fun w hw hne h => ?_⟩
  -- a closing tag that begins in the text does not run into the one behind it
  have hstops : Text.Stops closing (closing ++ v) := by
    show Text.Stops closing ('<' :: ("/span>".toList ++ v))
    exact Text.stops_cons.2 (by decide)
  exact htext ((Text.prefix_of_stops hstops hne h).isInfix.trans hw.isInfix)

/-- **The spans written for some references, put in the author's writing, give
what the author wrote**, if that holds neither the opening nor the closing tag
of a span and the names fit into spans. -/
theorem rewriteRuns_writeAll
    (hfs : EveryAll (fun term body => (∀ c ∈ term, isNameChar c) ∧ ∃ text, body = [.plain text]) fs)
    (hopening : ¬ opening <:+: writeAll Reference.write fs)
    (hclosing : ¬ closing <:+: writeAll Reference.write fs) :
    TagStyle.proseSpan.rewriteRuns Reference.write (writeAll write fs) =
      writeAll Reference.write fs := by
  induction fs using Fragment.forest_induction with
  | nil => simp
  | plain text fs ih =>
    rw [Fragment.writeAll_plain] at hopening hclosing ⊢
    have hsuffix : writeAll Reference.write fs <:+: text ++ writeAll Reference.write fs :=
      (List.suffix_append _ _).isInfix
    have hrest := ih (Fragment.everyAll_plain.1 hfs) (fun h => hopening (h.trans hsuffix))
      fun h => hclosing (h.trans hsuffix)
    have hread : ∀ t, t <:+ text → t ≠ [] → read? (t ++ writeAll write fs) = none := by
      intro t ht hne
      apply read?_eq_none_of_not_prefix
      exact Fragment.not_prefix_append_writeAll halts_write hopening ht hne
    rw [TagStyle.rewriteRuns_append _ hread, hrest, Fragment.writeAll_plain]
  | tagged term body fs ihBody ihRest =>
    obtain ⟨⟨⟨hterm, text, rfl⟩, -⟩, hrest⟩ := Fragment.everyAll_tagged.1 hfs
    have hdisplay : ∀ w, writeAll w [.plain text] = text := by simp
    rw [Fragment.writeAll_tagged, hdisplay] at hopening hclosing ⊢
    have hsuffix : writeAll Reference.write fs <:+:
        Reference.write term text ++ writeAll Reference.write fs :=
      (List.suffix_append _ _).isInfix
    have hrest' := ihRest hrest (fun h => hopening (h.trans hsuffix))
      fun h => hclosing (h.trans hsuffix)
    have hread := read?_write hterm (Reference.not_infix_display hclosing) (writeAll write fs)
    rw [TagStyle.rewriteRuns_of_tagged _ hread, hrest', Fragment.writeAll_tagged, hdisplay]

end ProseSpan

/-! ### Sources -/

namespace Source

/-- **The description holds what stands in the description lines.**  Its spans,
put in the author's writing, give the trimmed text of the lines, and they carry
the names of the references in these lines, with repetitions, which are the
names that the cross-check was made with. -/
theorem rewrite_description_read (source : Text) (hclosing : ¬ ProseSpan.closing <:+: source)
    (hopening : ¬ ProseSpan.opening <:+: Text.joinWith [' '] (descriptionLines source))
    (hnames : ∀ term ∈ referredTerms source, '"' ∉ term ∧ '>' ∉ term) :
    TagStyle.proseSpan.rewriteRuns Reference.write (Content.read source).description =
        Text.trim (Text.joinWith [' '] (descriptionLines source)) ∧
      (Content.read source).descriptionTerms = referredTerms source ∧
      (Content.read source).errors =
        (Problem.errors (Content.read source).termOrder (Content.read source).descriptionTerms
          (Content.read source).definitions.keys).map Problem.message ∧
      (Content.read source).warnings =
        (Problem.warnings (Content.read source).termOrder (Content.read source).descriptionTerms
          (Content.read source).definitions.keys).map Problem.message := by
  have hterms := descriptionTerms_read hopening hnames
  refine ⟨?_, hterms, ?_, ?_⟩
  · have hclosing' :
        ¬ ProseSpan.closing <:+: writeAll Reference.write (descriptionForest source) := by
      intro h
      obtain ⟨line, hline, hin⟩ := (Text.infix_joinWith_iff (by decide) (by decide)).1
        (infix_of_infix_descriptionForest h)
      exact hclosing (hin.trans (infix_of_mem_descriptionLines hline))
    rw [description_read, ProseSpan.rewriteRuns_writeAll (everyAll_isNameChar hnames)
      (fun h => hopening (infix_of_infix_descriptionForest h)) hclosing',
      writeAll_reference_descriptionForest]
  · rw [hterms, errors_read]
  · rw [hterms, warnings_read]

/-- A description with blanks at its ends, a reference made twice, and pieces
that are no references. -/
def wordySource : Text :=
  Text.unlines <| List.map String.toList
    ["## Description", "  A [x\x7b]\x7b.a\x7d[ y][z]\x7b.b\x7d <span",
     "class=[]\x7b.c\x7d[w]\x7b.a\x7d]\x7b.\x7d  "]

theorem rewrite_description_read_wordySource :
    (¬ ProseSpan.closing <:+: wordySource ∧
      ¬ ProseSpan.opening <:+: Text.joinWith [' '] (descriptionLines wordySource) ∧
      ∀ term ∈ referredTerms wordySource, '"' ∉ term ∧ '>' ∉ term) ∧
      TagStyle.proseSpan.rewriteRuns Reference.write (Content.read wordySource).description =
        ("A [x\x7b]\x7b.a\x7d[ y][z]\x7b.b\x7d <span "
          ++ "class=[]\x7b.c\x7d[w]\x7b.a\x7d]\x7b.\x7d").toList ∧
      (Content.read wordySource).descriptionTerms = [['a'], ['b'], ['a']] := by
  have hsource : ¬ ProseSpan.closing <:+: wordySource ∧
      ¬ ProseSpan.opening <:+: Text.joinWith [' '] (descriptionLines wordySource) ∧
      ∀ term ∈ referredTerms wordySource, '"' ∉ term ∧ '>' ∉ term := by decide +kernel
  obtain ⟨hclosing, hopening, hnames⟩ := hsource
  obtain ⟨hrewrite, hterms, -⟩ := rewrite_description_read wordySource hclosing hopening hnames
  exact ⟨⟨hclosing, hopening, hnames⟩, hrewrite.trans (by decide),
    hterms.trans (by decide +kernel)⟩

/-- A description in which the opening of a span is spread over two lines, with
a reference behind it. -/
def hiddenSource : Text :=
  Text.unlines <| List.map String.toList
    ["$$", "\\mark[b]\x7by\x7d", "$$", "## Description", "<span",
     "class=\"term-a\">see [y]\x7b.b\x7d", "## .b", "Beta."]

/-- The source as a whole may hold neither tag of a span, and yet the reference
is not read back: it stands in the text of a span that only the joined lines
hold. -/
theorem spread_opening_hides_reference :
    (¬ ProseSpan.opening <:+: hiddenSource ∧ ¬ ProseSpan.closing <:+: hiddenSource ∧
      ∀ term ∈ referredTerms hiddenSource, '"' ∉ term ∧ '>' ∉ term) ∧
      TagStyle.proseSpan.rewriteRuns Reference.write (Content.read hiddenSource).description ≠
        Text.trim (Text.joinWith [' '] (descriptionLines hiddenSource)) ∧
      (Content.read hiddenSource).descriptionTerms ≠ referredTerms hiddenSource := by
  decide +kernel

end Source

end AnnotatedEquation
