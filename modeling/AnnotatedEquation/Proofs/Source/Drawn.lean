/-
AnnotatedEquation/Proofs/Source/Drawn.lean

What the content of a source draws from its text: the title, the bodies of
the definitions and the names of the terms are made of parts of lines, and
hold no pattern that the source does not hold.  The equation and the
description hold spans of their own kind besides.

* `Draft.Lacks` tells that no text of a draft holds a pattern; every line
  without the pattern preserves it.

Main statements: the parts of the content of a bare source are bare
(`Source.bare_documentTitle`, `Source.bare_definition`, `Source.bare_name`),
its equation holds no span of a description and its description none of an
equation, and all spans of both are found again where the names fit into
spans (`Source.found_equation`, `Source.flat_description`).
-/
import AnnotatedEquation.Proofs.Entries
import AnnotatedEquation.Proofs.Markup.Bare
import AnnotatedEquation.Proofs.Markup.Found
import AnnotatedEquation.Proofs.Source.Description
import AnnotatedEquation.Proofs.Source.Equation

namespace AnnotatedEquation

open Fragment (writeAll termsAll)

variable {p line : Text} {d : Draft}

theorem Line.infix_of_title?_eq_some {t : Text} (h : Line.title? line = some t) : t <:+: line := by
  unfold title? at h
  split at h
  · next b c rest =>
    obtain ⟨-, h⟩ := Option.ite_none_right_eq_some.1 h
    obtain rfl := Option.some.inj h
    exact List.infix_cons (Text.isInfix_trim _)
  · simp at h

/-! ### Drafts -/

namespace Draft

/-- No title, body or line of an open body holds the pattern. -/
structure Lacks (p : Text) (d : Draft) : Prop where
  title : ∀ t, d.title = some t → ¬ p <:+: t
  definitions : ∀ e ∈ d.definitions, ¬ p <:+: e.2
  body : ∀ name body, d.current = .definition name body → ∀ line ∈ body, ¬ p <:+: line

/-- The open body, once it is closed, holds the pattern no more than its
lines. -/
theorem Lacks.allDefinitions (hp : p ≠ []) (hn : '\n' ∉ p) (h : Lacks p d) :
    ∀ e ∈ d.allDefinitions, ¬ p <:+: e.2 := by
  intro e he
  unfold Draft.allDefinitions at he
  split at he
  · next name body hcurrent =>
    rcases Entries.mem_put he with he | rfl
    · exact h.definitions e he
    · intro hin
      obtain ⟨line, hline, hpline⟩ :=
        (Text.infix_joinWith_iff hp hn).1 (hin.trans (Text.isInfix_trim _))
      -- the body that is still open consists of the lines taken so far
      exact h.body name body hcurrent line hline hpline
  · exact h.definitions e he

theorem Lacks.enter (hp : p ≠ []) (hn : '\n' ∉ p) (h : Lacks p d) {next : Section}
    (hnext : ∀ name body, next = .definition name body → body = []) : Lacks p (d.enter next) where
  title := h.title
  definitions := h.allDefinitions hp hn
  body := by
    intro name body hcurrent line hline
    rw [hnext name body hcurrent] at hline
    cases hline

/-- **A line without the pattern leaves a draft without it.** -/
theorem Lacks.addOutside (hp : p ≠ []) (hn : '\n' ∉ p) (h : Lacks p d) (hline : ¬ p <:+: line) :
    Lacks p (d.addOutside line) := by
  have htaken := taken_addOutside d line
  generalize d.addOutside line = d' at htaken ⊢
  cases htaken with
  | title htitle ht =>
    refine ⟨?_, h.definitions, h.body⟩
    intro t heq hin
    obtain rfl := Option.some.inj heq
    exact hline (hin.trans (Line.infix_of_title?_eq_some ht))
  | heading ht => exact h.enter hp hn (by simp)
  | @definition name ht hname =>
    refine h.enter hp hn ?_
    intro name' body hbody
    split at hbody
    · cases hbody
    · cases hbody
      rfl
  | description ht hname hcontent hcurrent => exact ⟨h.title, h.definitions, h.body⟩
  | @body name body ht hname hline hcurrent =>
    refine ⟨h.title, h.definitions, ?_⟩
    intro name' body' heq line' hline'
    cases heq
    rcases List.mem_append.1 hline' with hmem | hmem
    · exact h.body name body hcurrent line' hmem
    · rwa [List.mem_singleton.1 hmem]
  | nothing htitle ht hname hcontent => exact h

theorem Lacks.foldl_add (hp : p ≠ []) (hn : '\n' ∉ p) {lines : List Text} (h : Lacks p d)
    (hlines : ∀ line ∈ lines, ¬ p <:+: line) : Lacks p (lines.foldl add d) := by
  induction lines generalizing d with
  | nil => exact h
  | cons line lines ih =>
    refine ih ?_ fun l hl => hlines l (List.mem_cons_of_mem _ hl)
    rw [add]
    split
    · exact ⟨h.title, h.definitions, h.body⟩
    · split
      · exact ⟨h.title, h.definitions, h.body⟩
      · exact h.addOutside hp hn (hlines line List.mem_cons_self)

end Draft

/-! ### Contents -/

namespace Source

variable {source : Text}

theorem lacks_ofLines (hp : p ≠ []) (hn : '\n' ∉ p) (h : ¬ p <:+: source) :
    (Draft.ofLines (Text.lines source)).Lacks p := by
  have hempty : Draft.Lacks p {} := ⟨by simp, by simp, by simp⟩
  apply hempty.foldl_add hp hn
  intro line hline hin
  exact h (hin.trans (Text.infix_of_mem_lines hline))

theorem lacks_of_bare (h : Bare source) (hp : p ∈ openings) :
    (Draft.ofLines (Text.lines source)).Lacks p := by
  exact lacks_ofLines (ne_nil_of_mem_openings hp) (newline_not_mem_of_mem_openings hp) (h p hp)

/-- The title of a document comes from the source, unless it has none. -/
theorem bare_documentTitle (h : Bare source) : Bare (Content.read source).documentTitle := by
  have huntitled : Bare "Untitled".toList := by decide
  unfold Content.documentTitle
  split
  · exact huntitled
  · exact huntitled
  · next title hne htitle =>
    intro p hp
    exact (lacks_of_bare h hp).title title htitle

theorem bare_definition (h : Bare source) : ∀ e ∈ (Content.read source).definitions, Bare e.2 := by
  intro e he p hp
  exact (lacks_of_bare h hp).allDefinitions (ne_nil_of_mem_openings hp)
    (newline_not_mem_of_mem_openings hp) e he

theorem infix_writeAll_of_mem_termsAll {term : Text} {fs : List Fragment} (h : term ∈ termsAll fs) :
    term <:+: writeAll Mark.write fs := by
  induction fs using Fragment.forest_induction with
  | nil => simp at h
  | plain text fs ih =>
    rw [Fragment.writeAll_plain]
    exact (ih (by simpa using h)).trans (List.suffix_append _ _).isInfix
  | tagged name body fs ihBody ihRest =>
    rw [Fragment.termsAll_tagged, List.cons_append, List.mem_cons, List.mem_append] at h
    rw [Fragment.writeAll_tagged]
    rcases h with rfl | h | h
    · have hname : term <:+: Mark.write term (writeAll Mark.write body) :=
        ⟨Mark.opening, [']', '{'] ++ writeAll Mark.write body ++ ['}'], by simp [Mark.write]⟩
      exact hname.trans (List.prefix_append _ _).isInfix
    · exact ((ihBody h).trans (Mark.infix_write name _)).trans (List.prefix_append _ _).isInfix
    · exact (ihRest h).trans (List.suffix_append _ _).isInfix

theorem bare_writeAll_forest (h : Bare source) : Bare (writeAll Mark.write (forest source)) := by
  intro p hp hin
  exact h p hp (infix_of_infix_forest (ne_nil_of_mem_openings hp)
    (newline_not_mem_of_mem_openings hp) hin)

theorem bare_name (h : Bare source) : ∀ term ∈ (Content.read source).termOrder, Bare term := by
  intro term hterm
  rw [termOrder_eq_eraseDups, List.mem_eraseDups] at hterm
  exact Bare.of_infix (bare_writeAll_forest h) (infix_writeAll_of_mem_termsAll hterm)

/-! ### Spans -/

/-- No span of a description opens in the equation. -/
theorem not_infix_equation (h : Bare source) :
    ¬ ProseSpan.opening <:+: (Content.read source).equation := by
  have hmem : ProseSpan.opening ∈ openings := by decide
  have hframes := Mark.frames_write hmem
  rw [equation_read, Fragment.infix_writeAll_congr EquationSpan.frames_write hframes]
  exact bare_writeAll_forest h _ hmem

/-- No span of an equation opens in the description. -/
theorem not_infix_description (h : Bare source) :
    ¬ EquationSpan.opening <:+: (Content.read source).description := by
  have hmem : EquationSpan.opening ∈ openings := by decide
  have hframes := Reference.frames_write hmem
  rw [description_read, Fragment.infix_writeAll_congr ProseSpan.frames_write hframes]
  intro hin
  obtain ⟨line, hline, hpline⟩ :=
    (Text.infix_joinWith_iff (by decide) (by decide)).1 (infix_of_infix_descriptionForest hin)
  exact h _ hmem (hpline.trans (infix_of_mem_descriptionLines hline))

/-- The class names in the equation are those of terms. -/
theorem named_equation (h : Bare source) : EquationSpan.Named (Content.read source).equation := by
  rw [equation_read]
  apply EquationSpan.named_writeAll
  · exact (everyAll_forest source).mono fun term body h => h.1
  · exact bare_writeAll_forest h _ (by decide)

/-- **All spans of the equation are found again**, if no marked name ends in
a backslash. -/
theorem found_equation (h : Bare source)
    (hnames : ∀ line ∈ blockLines source, ∀ name ∈ Mark.siteNames line, name.getLast? ≠ some '\\') :
    EquationSpan.Found (Content.read source).equation := by
  have hmem : EquationSpan.opening ∈ openings := by decide
  have hforest := forest_equation_read (h _ hmem) hnames
  -- the author's writing of the spans that are found is all of what the author wrote
  have hiff := EquationSpan.infix_writeAllFrom_forest_iff (Mark.halts_write hmem)
    (Mark.frames_write hmem) (named_equation h) 0
  rw [hforest, ← Fragment.writeAll_eq_writeAllFrom, Fragment.writeAll_tidyAll] at hiff
  by_contra hfound
  exact bare_writeAll_forest h _ hmem (hiff.2 hfound)

/-- **All spans of the description are found again**, if the names fit into
spans and no opening of a span stands in the joined lines. -/
theorem flat_description
    (hclean : ¬ ProseSpan.opening <:+: Text.joinWith [' '] (descriptionLines source))
    (hnames : ∀ term ∈ referredTerms source, '"' ∉ term ∧ '>' ∉ term) :
    ProseSpan.Flat (Content.read source).description := by
  rw [description_read]
  apply ProseSpan.flat_writeAll (everyAll_isNameChar hnames)
  intro hin
  exact hclean (infix_of_infix_descriptionForest hin)

end Source

end AnnotatedEquation
