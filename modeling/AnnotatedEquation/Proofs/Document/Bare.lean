/-
AnnotatedEquation/Proofs/Document/Bare.lean

Whether a span opens in a document in LaTeX or in the slides.  The spans of
the equation and of the description are found again and rewritten; what is
not found stays as it is.

Everything else in a document is put together from fixed parts and from
pieces of the source, escaped or not, and shows no opening of a span unless
the source does.

Main statement: a document of a bare source is bare exactly if all spans of
its equation and of its description are found again
(`Format.bare_document_iff`).
-/
import AnnotatedEquation.Document.Format
import AnnotatedEquation.Palette.Builtin
import AnnotatedEquation.Proofs.Document.Lookup
import AnnotatedEquation.Proofs.Escape.Latex
import AnnotatedEquation.Proofs.Palette.Hex
import AnnotatedEquation.Proofs.Source.Drawn

namespace AnnotatedEquation

open Fragment (Frames Halts writeAllFrom)

variable {p s u term inner body color : Text} {source : Text} {n : Nat}

/-! ### Digits -/

/-- A text without backslashes and angle brackets is bare. -/
theorem bare_of_forall_ne (h : ∀ c ∈ s, c ≠ '\\' ∧ c ≠ '<') : Bare s := by
  intro p hp hin
  have hhead : ∀ p ∈ openings, '\\' ∈ p ∨ '<' ∈ p := by decide
  rcases hhead p hp with hc | hc
  · exact (h _ (hin.mem hc)).1 rfl
  · exact (h _ (hin.mem hc)).2 rfl

theorem bare_ofNat (n : Nat) : Bare (Text.ofNat n) := by
  apply bare_of_forall_ne
  intro c hc
  have hdigit : c.isDigit := Nat.isDigit_of_mem_toDigits (by decide) (by decide) hc
  refine ⟨?_, ?_⟩
  · rintro rfl
    exact absurd hdigit (by decide)
  · rintro rfl
    exact absurd hdigit (by decide)

/-! ### Colors -/

/-- The digits of a color show no opening of a span. -/
theorem bare_hexDigits (h : isHexColor color) : Bare (hexDigits color) := by
  -- the table of capital letters is looked up for all characters of a color
  have hupper : ∀ c ∈ colorLetters, ∀ d ∈ Text.upperChar c, d ≠ '\\' ∧ d ≠ '<' := by
    decide
  have hletters : ∀ c ∈ color.dropWhile (· = '#'), c ∈ colorLetters := fun c hc =>
    mem_colorLetters_of_isHexColor h c ((List.dropWhile_suffix _).mem hc)
  apply bare_of_forall_ne
  intro c hc
  obtain ⟨d, hd, hc⟩ := List.mem_flatMap.1 hc
  refine hupper d (hletters d ?_) c hc
  split at hd
  · obtain ⟨e, he, hd⟩ := List.mem_flatMap.1 hd
    obtain rfl : d = e := by simpa using hd
    exact he
  · exact hd

theorem bare_color {order : List Text} {q : Palette} : Bare (hexDigits (q.color order term)) := by
  have hnone : Bare (hexDigits []) := by decide
  rw [Palette.color, Palette.colorFor]
  split
  · exact hnone
  · split
    · exact hnone
    · next hcolor =>
      exact bare_hexDigits (List.all_eq_true.1 q.all_hex _ (List.mem_of_getElem? hcolor))

/-! ### Escaped text and prose -/

theorem safe_of_mem_openings (hp : p ∈ openings) : Reserved.Safe Latex.token p := by
  simp only [openings, List.mem_cons, List.not_mem_nil, or_false] at hp
  rcases hp with rfl | rfl
  exacts [Latex.safe_equationSpan, Latex.safe_proseSpan]

theorem bare_append (hu : ∀ p ∈ openings, Text.Bars p u) (h : Bare s) : Bare (u ++ s) := by
  intro p hp hin
  exact h p hp ((Text.infix_append_of_bars (hu p hp)).1 hin)

theorem bare_colorName (h : Bare term) : Bare (colorName term) := bare_append (by decide) h

namespace Latex

theorem bare_escape (h : Bare s) : Bare (escape s) := by
  intro p hp hin
  exact h p hp (infix_of_infix_escape (safe_of_mem_openings hp) hin)

theorem bare_prose (h : Bare s) : Bare (prose s) := by
  have hdollar : ∀ p ∈ openings, '$' ∉ p := by decide
  intro p hp hin
  exact h p hp (infix_of_infix_prose (safe_of_mem_openings hp) (hdollar p hp) hin)

theorem bare_colored (hc : Bare color) (hinner : Bare inner) : Bare (colored color inner) := by
  show Bare (Text.fill "\\textcolor\x7b".toList [color, inner] [['}', '{'], ['}']])
  exact bare_fill (by decide) (by simp [hc, hinner])

/-! ### The lines of the article -/

theorem bare_colorLines (h : Bare source) (q : Palette) :
    ∀ line ∈ colorLines (Content.read source) q, Bare line := by
  intro line hline
  obtain ⟨term, hterm, rfl⟩ := List.mem_map.1 hline
  have hname := bare_colorName (Source.bare_name h term (List.mem_eraseDups.1 hterm))
  show Bare (Text.fill "\\definecolor\x7b".toList [colorName term, hexDigits _]
    ["\x7d\x7bHTML\x7d\x7b".toList, ['}']])
  exact bare_fill (by decide) (by simp [hname, bare_color])

theorem bare_definitionLines (hterm : Bare term) (hbody : Bare body) :
    ∀ line ∈ definitionLines term body, Bare line := by
  have hname := bare_colored (bare_colorName hterm) (bare_escape hterm)
  have hheading := bare_between (u := "\\subsection*\x7b".toList) (t := ['}']) (by decide) hname
  have hnil : Bare [] := by decide
  simp only [definitionLines, List.forall_mem_cons]
  exact ⟨hheading, bare_prose hbody, hnil, by simp⟩

theorem bare_definitionsText (h : Bare source) :
    ∀ line ∈ definitionsText (Content.read source), Bare line := by
  intro line hline
  obtain ⟨⟨term, body⟩, hmem, hline⟩ := List.mem_flatMap.1 hline
  obtain ⟨hdefinition, hterm⟩ := List.mem_filter.1 hmem
  have hname := Source.bare_name h term (by simpa using hterm)
  exact bare_definitionLines hname (Source.bare_definition h _ hdefinition) line hline

theorem bare_articleLines {title equation description : Text} {colors definitions : List Text}
    (htitle : Bare title) (hcolors : ∀ line ∈ colors, Bare line) (hequation : Bare equation)
    (hdescription : Bare description) (hdefinitions : ∀ line ∈ definitions, Bare line) :
    ∀ line ∈ articleLines title colors equation description definitions, Bare line := by
  have hheading := bare_between (u := "\\title\x7b".toList) (t := ['}']) (by decide) htitle
  simp only [articleLines, List.forall_mem_append, List.forall_mem_cons]
  -- every other line is fixed
  and_intros <;> first | with_reducible assumption | decide

/-- Whether an article is bare is told from its equation and its
description. -/
theorem bare_text_iff (h : Bare source) (q : Palette) :
    Bare (text (Content.read source) q) ↔
      Bare (equationText (Content.read source)) ∧ Bare (descriptionText (Content.read source)) := by
  rw [text, bare_unlines_iff]
  constructor
  · intro hlines
    exact ⟨hlines _ (by simp [articleLines]), hlines _ (by simp [articleLines])⟩
  · rintro ⟨hequation, hdescription⟩
    exact bare_articleLines (bare_escape (Source.bare_documentTitle h)) (bare_colorLines h q)
      hequation hdescription (bare_definitionsText h)

end Latex

/-! ### The equation -/

/-- **The equation of a bare source is bare in a document exactly if all its
spans are found**, however the pieces are dressed. -/
theorem bare_writeAllFrom_iff {w : Nat → Text → Text → Text} (hhalts : ∀ p ∈ openings, Halts p w)
    (hframes : ∀ p ∈ openings, Frames p w) (h : Bare source) (n : Nat) :
    Bare (writeAllFrom w n (EquationSpan.forest (Content.read source).equation)) ↔
      EquationSpan.Found (Content.read source).equation := by
  have hmem : EquationSpan.opening ∈ openings ∧ ProseSpan.opening ∈ openings := by decide
  have hprose : ¬ ProseSpan.opening <:+:
      writeAllFrom w n (EquationSpan.forest (Content.read source).equation) := by
    intro hin
    -- a prose opening would stand in the equation itself
    have hsame := (Fragment.infix_writeAllFrom_congr (hframes _ hmem.2)
      EquationSpan.frames_write [] n 0).1 hin
    rw [EquationSpan.writeAllFrom_forest] at hsame
    exact Source.not_infix_equation h hsame
  rw [bare_iff, and_iff_left hprose, EquationSpan.infix_writeAllFrom_forest_iff
    (hhalts _ hmem.1) (hframes _ hmem.1) (Source.named_equation h), Classical.not_not]

namespace Latex

theorem halts_colored (hp : p ∈ openings) : Halts p fun _ term => colored (colorName term) := by
  have hstops : ∀ p ∈ openings, Text.Stops p coloredStart := by decide
  refine Fragment.halts_of_front (u := coloredStart) (by decide) (hstops p hp) ?_
  intro n term inner
  exact ⟨_, (colored_eq term inner).symm⟩

theorem frames_colored (hp : p ∈ openings) : Frames p fun _ term => colored (colorName term) := by
  have hparts : ∀ p ∈ openings, ∀ u ∈ [coloredStart, ['}', '{'], ['}']],
      Text.Divides p u := by decide
  apply Fragment.frames_of_divides (ne_nil_of_mem_openings hp) (hparts p hp)
  intro n term inner
  exact colored_eq term inner

theorem bare_equationText_iff (h : Bare source) :
    Bare (equationText (Content.read source)) ↔
      EquationSpan.Found (Content.read source).equation := by
  rw [equationText, Fragment.writeAll_eq_writeAllFrom _ 0]
  apply bare_writeAllFrom_iff _ _ h
  · intro p hp
    exact halts_colored hp
  · intro p hp
    exact frames_colored hp

/-! ### The description -/

/-- The pattern occurs in the prose of a run or in its term. -/
def Shows (p : Text) (run : Run) : Prop :=
  p <:+: prose run.content ∨ ∃ term ∈ run.term?, p <:+: term

/-- What is written for some runs holds an opening exactly if one of the
runs does. -/
theorem infix_flatMap_runText_iff {rs : List Run} (hp : p ∈ openings) (h : Run.Apart rs) :
    p <:+: rs.flatMap runText ↔ ∃ run ∈ rs, Shows p run := by
  have hp' := ne_nil_of_mem_openings hp
  induction rs with
  | nil => simp [hp']
  | cons run rs ih =>
    have hrest : p <:+: rs.flatMap runText ↔ ∃ run ∈ rs, Shows p run := ih (Run.apart_cons.1 h).2
    rw [List.flatMap_cons, List.exists_mem_cons_iff]
    cases run with
    | plain text =>
      have hstops : Text.Stops p (rs.flatMap runText) := h.stops fun term content rest =>
        halts_colored hp 0 term (prose content) rest
      have hplain : runText (.plain text) = prose text := rfl
      rw [hplain, Text.infix_append_of_stops hp' hstops, hrest]
      simp [Shows, Run.content, Run.term?]
    | tagged term content =>
      have hframes := frames_colored hp 0 term (prose content) [] (rs.flatMap runText)
      have htagged : runText (.tagged term content) = colored (colorName term) (prose content) := rfl
      rw [htagged]
      simp only [List.nil_append, List.infix_nil, hp', false_or] at hframes
      rw [hframes, hrest]
      simp [Shows, Run.content, Run.term?, or_assoc, or_left_comm]

/-- **The description of a bare source is bare in a document exactly if all
its spans are found again** and leave no opening behind. -/
theorem bare_descriptionText_iff (h : Bare source) :
    Bare (descriptionText (Content.read source)) ↔
      ProseSpan.Flat (Content.read source).description := by
  have hmem : EquationSpan.opening ∈ openings ∧ ProseSpan.opening ∈ openings := by decide
  have hapart := TagStyle.proseSpan.apart_runs (Content.read source).description
  have hequation : ¬ EquationSpan.opening <:+:
      (TagStyle.proseSpan.runs (Content.read source).description).flatMap runText := by
    rw [infix_flatMap_runText_iff hmem.1 hapart]
    rintro ⟨run, hrun, hin⟩
    obtain ⟨hcontent, hterm⟩ := ProseSpan.infix_of_mem_runs hrun
    apply Source.not_infix_description h
    rcases hin with hin | ⟨term, hmem, hin⟩
    · exact (infix_of_infix_prose safe_equationSpan (by decide) hin).trans hcontent
    · exact hin.trans (hterm term hmem)
  rw [descriptionText, bare_trim_iff, bare_iff, and_iff_right hequation,
    infix_flatMap_runText_iff hmem.2 hapart, ProseSpan.flat_iff]
  -- the names of the spans that are found are bare, so the texts decide
  have hname : ∀ run ∈ TagStyle.proseSpan.runs (Content.read source).description,
      ∀ term ∈ run.term?, ¬ ProseSpan.opening <:+: term := by
    intro run hrun term hterm hin
    cases run with
    | plain text => cases hterm
    | tagged term' text =>
      obtain rfl := Option.some.inj hterm
      -- an opening holds a quote
      have hquote := ProseSpan.isNameChar_of_mem_runs hrun '"' (hin.mem (by decide))
      exact absurd hquote (by decide)
  constructor
  · intro hnone run hrun hin
    exact hnone ⟨run, hrun, Or.inl ((infix_prose_iff _).2 hin)⟩
  · rintro hflat ⟨run, hrun, hin | ⟨term, hterm, hin⟩⟩
    · exact hflat run hrun ((infix_prose_iff _).1 hin)
    · exact hname run hrun term hterm hin

end Latex

/-! ### The slides -/

namespace Beamer

theorem bare_anchorName (n : Nat) : Bare (anchorName n) :=
  bare_append (u := ['n']) (by decide) (bare_ofNat n)

theorem bare_definitionAnchorName (n : Nat) : Bare (definitionAnchorName n) :=
  bare_append (by decide) (bare_ofNat n)

/-- The end of a piece and the anchor behind it keep the openings apart. -/
theorem parts_coordinate (hp : p ∈ openings) (n : Nat) : Text.Parts p (['}'] ++ coordinate n) := by
  have hstart : Text.Parts p (['}'] ++ coordinateHead) := parts_of_mem_openings (by decide) hp
  have hend : Text.Parts p [')', ';'] := parts_of_mem_openings (by decide) hp
  rw [coordinate_eq, ← List.append_assoc]
  exact hstart.between (bare_ofNat n p hp) hend

theorem anchored_eq (n : Nat) (term inner : Text) :
    anchored n term inner =
      Latex.coloredStart ++ (term ++ (['}', '{'] ++ (inner ++ (['}'] ++ coordinate n)))) := by
  rw [anchored, Latex.colored_eq]
  simp only [List.append_assoc]

theorem halts_anchored (hp : p ∈ openings) : Halts p anchored := by
  have hstops : ∀ p ∈ openings, Text.Stops p Latex.coloredStart := by decide
  refine Fragment.halts_of_front (u := Latex.coloredStart) (by decide) (hstops p hp) ?_
  intro n term inner
  exact ⟨_, (anchored_eq n term inner).symm⟩

theorem frames_anchored (hp : p ∈ openings) : Frames p anchored := by
  refine Fragment.frames_of_parts ?_ ?_ (parts_coordinate hp) anchored_eq
  · exact parts_of_mem_openings (by decide) hp
  · exact parts_of_mem_openings (by decide) hp

theorem bare_equationText_iff (h : Bare source) :
    Bare (equationText (Content.read source)).1 ↔
      EquationSpan.Found (Content.read source).equation := by
  apply bare_writeAllFrom_iff _ _ h
  · intro p hp
    exact halts_anchored hp
  · intro p hp
    exact frames_anchored hp

theorem bare_arrowLines (h : Bare term) (n index : Nat) :
    ∀ line ∈ arrowLines term n index, Bare line := by
  have hname := bare_colorName h
  have harrow : Bare (Text.fill "  \\draw[->,".toList
      [colorName term, anchorName n, definitionAnchorName index]
      [",line width=1.5pt,rounded corners=5pt] ($(".toList,
        ")+(-0.3em,-0.2em)$) -- ++(0,-0.6) -| (".toList, [')', ';']]) :=
    bare_fill (by decide) (by simp [hname, bare_anchorName, bare_definitionAnchorName])
  simp only [arrowLines, List.forall_mem_cons]
  exact ⟨by decide, harrow, by decide, by simp⟩

theorem bare_definitionLines {title equation : Text} {anchors : Anchors} (htitle : Bare title)
    (hequation : Bare equation) (hterm : Bare term) (hbody : Bare body) (index : Nat) :
    ∀ line ∈ definitionLines title equation anchors index term body, Bare line := by
  have hlabel := bare_between (u := "\\begin\x7bframe\x7d[label=term".toList) (t := [']']) (by decide)
    (bare_ofNat index)
  have hframetitle := bare_between (u := "\\frametitle\x7b".toList) (t := ['}']) (by decide) htitle
  have hname := Latex.bare_colored (bare_colorName hterm) (Latex.bare_escape hterm)
  have hblock := bare_between (u := "\\begin\x7bblock\x7d\x7b".toList) (t := ['}']) (by decide) hname
  have hanchor := bare_between (u := "\\tikz[na] \\coordinate (".toList) (t := [')', ';']) (by decide)
    (bare_definitionAnchorName index)
  have hprose := Latex.bare_prose hbody
  have harrow : ∀ line ∈ ((anchors.first? term).map fun n => arrowLines term n index).getD [],
      Bare line := by
    rcases anchors.first? term with - | n
    · simp
    · exact bare_arrowLines hterm n index
  simp only [definitionLines, List.forall_mem_append, List.forall_mem_cons]
  -- every other line is fixed
  and_intros <;> first | with_reducible assumption | decide

theorem bare_definitionsText (h : Bare source)
    (hequation : Bare (equationText (Content.read source)).1) :
    ∀ line ∈ definitionsText (Content.read source), Bare line := by
  intro line hline
  obtain ⟨⟨⟨term, body⟩, index⟩, hmem, hline⟩ := List.mem_flatMap.1 hline
  obtain ⟨hdefinition, hterm⟩ := List.mem_filter.1 (List.fst_mem_of_mem_zipIdx hmem)
  have hname := Source.bare_name h term (by simpa using hterm)
  have htitle := Latex.bare_escape (Source.bare_documentTitle h)
  exact bare_definitionLines htitle hequation hname (Source.bare_definition h _ hdefinition) index
    line hline

theorem bare_slideLines {title equation description : Text} {colors definitions : List Text}
    (htitle : Bare title) (hcolors : ∀ line ∈ colors, Bare line) (hequation : Bare equation)
    (hdescription : Bare description) (hdefinitions : ∀ line ∈ definitions, Bare line) :
    ∀ line ∈ slideLines title colors equation description definitions, Bare line := by
  have hheading := bare_between (u := "\\title\x7b".toList) (t := ['}']) (by decide) htitle
  simp only [slideLines, List.forall_mem_append, List.forall_mem_cons]
  -- every other line is fixed
  and_intros <;> first | with_reducible assumption | decide

/-- Whether the slides are bare is told from the equation and the
description. -/
theorem bare_text_iff (h : Bare source) (q : Palette) :
    Bare (text (Content.read source) q) ↔
      Bare (equationText (Content.read source)).1 ∧
        Bare (Latex.descriptionText (Content.read source)) := by
  rw [text, bare_unlines_iff]
  constructor
  · intro hlines
    exact ⟨hlines _ (by simp [slideLines]), hlines _ (by simp [slideLines])⟩
  · rintro ⟨hequation, hdescription⟩
    exact bare_slideLines (Latex.bare_escape (Source.bare_documentTitle h))
      (Latex.bare_colorLines h q) hequation hdescription (bare_definitionsText h hequation)

end Beamer

/-! ### Documents -/

namespace Format

/-- **A document of a bare source is bare exactly if all the spans of its
content are found again**: wherever the opening of a span stands in the
equation, a span is recognised there, at any depth, and wherever one stands
in the description, with no further opening in its text.  So it is if no
marked name ends in a backslash, no name that is referred to holds a quote
or an angle bracket, and no opening comes from lines of the description that
are put together. -/
theorem bare_document_iff (source : Text) (p : Palette) (math : MathStyle) {format : Format}
    (hformat : format = latex ∨ format = beamer) (hsource : Bare source) {text : Text}
    (htext : format.document (Content.read source) p math = .ok text) :
    (Bare text ↔ EquationSpan.Found (Content.read source).equation ∧
      ProseSpan.Flat (Content.read source).description) ∧
    ((∀ line ∈ Source.blockLines source, ∀ name ∈ Mark.siteNames line, name.getLast? ≠ some '\\') →
      (∀ term ∈ Source.referredTerms source, '"' ∉ term ∧ '>' ∉ term) →
      ¬ ProseSpan.opening <:+: Text.joinWith [' '] (Source.descriptionLines source) →
      Bare text) := by
  have hiff : Bare text ↔ EquationSpan.Found (Content.read source).equation ∧
      ProseSpan.Flat (Content.read source).description := by
    rcases hformat with rfl | rfl
    · have hlatex : Latex.document (Content.read source) p = .ok text := htext
      rw [Latex.document_guarded] at hlatex
      rw [← eq_of_guarded_eq_ok hlatex, Latex.bare_text_iff hsource,
        Latex.bare_equationText_iff hsource, Latex.bare_descriptionText_iff hsource]
    · have hslides : Beamer.document (Content.read source) p = .ok text := htext
      rw [Beamer.document_guarded] at hslides
      rw [← eq_of_guarded_eq_ok hslides, Beamer.bare_text_iff hsource,
        Beamer.bare_equationText_iff hsource, Latex.bare_descriptionText_iff hsource]
  -- the names in the source tell that all spans are found
  refine ⟨hiff, ?_⟩
  intro hmarked hreferred hjoined
  exact hiff.2 ⟨Source.found_equation hsource hmarked, Source.flat_description hjoined hreferred⟩

/-- A source with a mark inside a mark, references on two lines and a
definition with reserved characters. -/
def boundSource : Text :=
  Text.unlines <| List.map String.toList
    ["# Bound", "$$", "\\mark[a]\x7bx^\x7b\\mark[b]\x7by\x7d\x7d\x7d < 1", "$$", "## Description",
     "The [power]\x7b.a\x7d of its", "[exponent]\x7b.b\x7d.", "## .a", "Alpha & <b>."]

theorem bare_document_iff_boundSource :
    (Bare boundSource ∧
      (∀ line ∈ Source.blockLines boundSource, ∀ name ∈ Mark.siteNames line,
        name.getLast? ≠ some '\\') ∧
      (∀ term ∈ Source.referredTerms boundSource, '"' ∉ term ∧ '>' ∉ term) ∧
      ¬ ProseSpan.opening <:+: Text.joinWith [' '] (Source.descriptionLines boundSource)) ∧
      ∃ text, beamer.document (Content.read boundSource) Palette.vibrant = .ok text ∧ Bare text := by
  have hsource : Bare boundSource ∧
      (∀ line ∈ Source.blockLines boundSource, ∀ name ∈ Mark.siteNames line,
        name.getLast? ≠ some '\\') ∧
      (∀ term ∈ Source.referredTerms boundSource, '"' ∉ term ∧ '>' ∉ term) ∧
      ¬ ProseSpan.opening <:+: Text.joinWith [' '] (Source.descriptionLines boundSource) := by
    decide +kernel
  obtain ⟨hbare, hmarked, hreferred, hjoined⟩ := hsource
  have hlookups : (Content.read boundSource).termOrder = [['a'], ['b']] ∧
      (Content.read boundSource).equationTerms = [['a'], ['b']] ∧
      (Content.read boundSource).descriptionTerms = [['a'], ['b']] := by decide +kernel
  obtain ⟨horder, hequation, hdescription⟩ := hlookups
  have htext : beamer.document (Content.read boundSource) Palette.vibrant =
      .ok (Beamer.text (Content.read boundSource) Palette.vibrant) := by
    show Beamer.document (Content.read boundSource) Palette.vibrant = _
    rw [Beamer.document_guarded, horder, hequation, hdescription]
    rfl
  have hdocument := bare_document_iff boundSource Palette.vibrant {} (Or.inr rfl) hbare htext
  exact ⟨⟨hbare, hmarked, hreferred, hjoined⟩, _, htext, hdocument.2 hmarked hreferred hjoined⟩

/-- A source in which the name of an inner mark ends in a backslash. -/
def backslashSource : Text :=
  Text.unlines <| List.map String.toList
    ["$$", "\\mark[a]\x7b\\mark[b\\]\x7bx\x7d y\x7d", "$$"]

/-- The backslash escapes the brace behind the inner name, the outer span is
never closed, and its opening is left in the article. -/
theorem backslash_leaves_opening :
    Bare backslashSource ∧
      ∃ text, latex.document (Content.read backslashSource) Palette.vibrant = .ok text ∧
        EquationSpan.opening <:+: text := by
  have hlookups : (Content.read backslashSource).termOrder = [['a'], ['b', '\\']] ∧
      (Content.read backslashSource).equationTerms = [['b', '\\']] ∧
      (Content.read backslashSource).descriptionTerms = [] := by decide +kernel
  obtain ⟨horder, hequation, hdescription⟩ := hlookups
  refine ⟨by decide, Latex.text (Content.read backslashSource) Palette.vibrant, ?_, ?_⟩
  · show Latex.document (Content.read backslashSource) Palette.vibrant = _
    rw [Latex.document_guarded, horder, hequation, hdescription]
    rfl
  · decide +kernel

end Format

end AnnotatedEquation
