/-
AnnotatedEquation/Proofs/Document/OneEquation.lean

The equation of a source as the article, the slides and the page have it.
The slides add a command behind every piece of a term, and the page adds the
class of the term around it and has its color in place of the color's name.

* `Html.recolored` reads the equation of the page again, and writes every
  colored span in it as the article does, spans inside others included;
* that a span is read again where it was written rests on the levels of its
  braces, which no color changes (`Latex.level?_colored`).

Main statement: both come down to the equation of the article
(`Content.equation_alike_in_documents`).
-/
import AnnotatedEquation.Proofs.Document.Colors
import AnnotatedEquation.Proofs.Document.Coordinate

namespace AnnotatedEquation

open Delimiters (braces)
open Fragment (EveryAll writeAll termsAll)

variable {s u v term content inner rest : Text} {fs : List Fragment}

/-! ### Colors between braces -/

/-- No color holds a brace or a backslash. -/
theorem no_brace_of_isHexColor {color : Text} (h : isHexColor color) :
    ∀ x ∈ color, x ≠ '{' ∧ x ≠ '}' ∧ x ≠ '\\' := by
  have hletters : ∀ x ∈ colorLetters, x ≠ '{' ∧ x ≠ '}' ∧ x ≠ '\\' := by decide
  intro x hx
  exact hletters x (mem_colorLetters_of_isHexColor h x hx)

namespace Latex

/-- Text in a color leaves the levels of braces as they were. -/
theorem level?_colored {color : Text} (hcolor : ∀ x ∈ color, x ≠ '{' ∧ x ≠ '}' ∧ x ≠ '\\')
    (hclosed : braces.Closed inner) (m : Nat) (e : Bool) :
    braces.level? m e (colored color inner) = some (m, false) := by
  have hcommand : braces.level? m e colorCommand = some (m + 1, false) := rfl
  have hname : braces.level? (m + 1) false color = some (m + 1, false) :=
    Delimiters.level?_of_plain hcolor _
  rw [colored_split, Delimiters.level?_append, Delimiters.level?_append, Delimiters.level?_append,
    hcommand, Option.bind_some, hname, Option.bind_some]
  -- the color is closed, and the text in it begins one level further in
  show (braces.level? (m + 1) false (inner ++ ['}'])) = _
  rw [Delimiters.level?_append, hclosed.level?]
  rfl

end Latex

/-! ### The equation of a page, colored anew -/

namespace Html

/-- The piece that a content shows in a color. -/
def uncolored? (color content : Text) : Option Text := do
  let rest ← Text.after? (Latex.colorCommand ++ color ++ ['}', '{']) content
  if rest.getLast? = some '}' then some rest.dropLast else none

theorem uncolored?_eq_some_iff {color : Text} :
    uncolored? color content = some inner ↔ content = Latex.colored color inner := by
  rw [uncolored?, Option.bind_eq_bind, Option.bind_eq_some_iff, Latex.colored_split]
  constructor
  · rintro ⟨rest, hrest, h⟩
    obtain ⟨hlast, h⟩ := Option.ite_none_right_eq_some.1 h
    have hback : inner ++ ['}'] = rest := by
      rw [← Option.some.inj h]
      exact List.dropLast_append_getLast? _ hlast
    rw [Text.after?_eq_some_iff.1 hrest, ← hback]
  · intro h
    exact ⟨inner ++ ['}'], Text.after?_eq_some_iff.2 h, by simp⟩

theorem length_uncolored? {color : Text} (h : uncolored? color content = some inner) :
    inner.length < content.length := by
  have hlt : inner.length < (inner ++ ['}']).length := by simp
  rw [uncolored?_eq_some_iff.1 h, Latex.colored_split, List.length_append]
  exact Nat.lt_of_lt_of_le hlt (Nat.le_add_left _ _)

variable (color : Text → Text)

/-- The equation of a page with every span in the color of its term written
with the name of that color, and those inside it in the same way. -/
def recolored (s : Text) : Text :=
  ((TagStyle.equationSpan.runs s).attach.map fun
    | ⟨.plain text, _⟩ => text
    | ⟨.tagged term content, _⟩ =>
      match _hinner : uncolored? (color term) content with
      | some inner => Latex.colored (colorName term) (recolored inner)
      | none => EquationSpan.write term content).flatten
termination_by s.length
decreasing_by
  next h => exact (length_uncolored? _hinner).trans (TagStyle.equationSpan.length_lt_of_mem_runs h)

/-- A run of the equation of a page, written anew. -/
def recoloredRun : Run → Text
  | .plain text => text
  | .tagged term content =>
    match uncolored? (color term) content with
    | some inner => Latex.colored (colorName term) (recolored color inner)
    | none => EquationSpan.write term content

theorem recolored_eq (s : Text) :
    recolored color s = (TagStyle.equationSpan.runs s).flatMap (recoloredRun color) := by
  rw [recolored, List.flatMap_def]
  conv => rhs; rw [← List.attach_map_subtype_val (TagStyle.equationSpan.runs s), List.map_map]
  congr 1
  refine List.map_congr_left fun r _ => ?_
  rcases r with ⟨text | ⟨term, content⟩, _⟩
  · rfl
  · simp only [Function.comp_apply, recoloredRun]
    split <;> simp_all

theorem flatMap_before (run : Run) (rs : List Run) :
    (run.before rs).flatMap (recoloredRun color) =
      recoloredRun color run ++ rs.flatMap (recoloredRun color) := by
  cases run <;> rcases rs with - | ⟨- | -, rs⟩ <;> simp [Run.before, recoloredRun]

@[simp] theorem recolored_nil : recolored color [] = [] := by
  rw [recolored_eq, TagStyle.runs_nil, List.flatMap_nil]

theorem recolored_cons {c : Char} (h : EquationSpan.read? (c :: s) = none) :
    recolored color (c :: s) = c :: recolored color s := by
  rw [recolored_eq, TagStyle.equationSpan.runs_cons h, flatMap_before, ← recolored_eq]
  rfl

theorem recolored_of_tagged (h : EquationSpan.read? s = some (.tagged term content, rest))
    (hinner : uncolored? (color term) content = some inner) :
    recolored color s =
      Latex.colored (colorName term) (recolored color inner) ++ recolored color rest := by
  have hrun : recoloredRun color (.tagged term content) =
      Latex.colored (colorName term) (recolored color inner) := by
    rw [recoloredRun, hinner]
  rw [recolored_eq, TagStyle.equationSpan.runs_of_read? h, flatMap_before, hrun, ← recolored_eq]

/-- A stretch of text in which no span is read stays as it is. -/
theorem recolored_append (h : ∀ w, w <:+ u → w ≠ [] → EquationSpan.read? (w ++ v) = none) :
    recolored color (u ++ v) = u ++ recolored color v := by
  induction u with
  | nil => rfl
  | cons c u ih =>
    have hc : EquationSpan.read? (c :: (u ++ v)) = none := h (c :: u) List.suffix_rfl (by simp)
    have hu := ih fun w hw => h w (hw.trans (List.suffix_cons c u))
    rw [List.cons_append, recolored_cons color hc, hu, List.cons_append]

/-! ### Spans read again in colors -/

/-- A tagged piece of the equation of a page. -/
def dressed (term inner : Text) : Text :=
  EquationSpan.write term (Latex.colored (color term) inner)

/-- What a term and its color must be for a span of the page to be read
again. -/
def Readable (term : Text) : Prop :=
  (Mark.IsTermName term ∧ term.getLast? ≠ some '\\') ∧
    ∀ x ∈ color term, x ≠ '{' ∧ x ≠ '}' ∧ x ≠ '\\'

theorem steady_dressed : Fragment.Steady (Readable color) (dressed color) := by
  intro term inner hterm hclosed m e
  have hcolored : braces.Closed (Latex.colored (color term) inner) :=
    Latex.level?_colored hterm.2 hclosed 0 false
  exact EquationSpan.level?_write hterm.1.1 hterm.1.2 hcolored m e

theorem halts_dressed : Fragment.Halts EquationSpan.opening fun _ => dressed color :=
  fun n term inner rest => EquationSpan.halts_write n term (Latex.colored (color term) inner) rest

/-- **The spans of a page come down to those of an article**, if the author
wrote no opening of a span in them. -/
theorem recolored_writeAll
    (hfs : EveryAll (fun term body => Readable color term ∧
      braces.Closed (writeAll (dressed color) body)) fs)
    (hclean : ¬ EquationSpan.opening <:+: writeAll Mark.write fs) :
    recolored color (writeAll (dressed color) fs) =
      writeAll (fun term => Latex.colored (colorName term)) fs := by
  induction fs using Fragment.forest_induction with
  | nil => simp
  | plain text fs ih =>
    rw [Fragment.writeAll_plain] at hclean ⊢
    have hrest := ih (Fragment.everyAll_plain.1 hfs) fun h =>
      hclean (h.trans (List.suffix_append _ _).isInfix)
    -- an opening that begins in plain text would stand in what the author wrote
    have hread : ∀ w, w <:+ text → w ≠ [] →
        EquationSpan.read? (w ++ writeAll (dressed color) fs) = none := by
      intro w hw hne
      apply EquationSpan.read?_eq_none_of_not_prefix
      exact Fragment.not_prefix_append_writeAll (halts_dressed color) hclean hw hne
    rw [recolored_append color hread, hrest, Fragment.writeAll_plain]
  | tagged term body fs ihBody ihRest =>
    obtain ⟨⟨⟨hterm, hclosed⟩, hbody⟩, hrest⟩ := Fragment.everyAll_tagged.1 hfs
    obtain ⟨hcleanBody, hcleanRest⟩ := Mark.not_infix_of_tagged hclean
    rw [Fragment.writeAll_tagged]
    have hbrace : '}' ∉ term := fun hc => hterm.1.1.2 _ hc (by simp)
    have hcolored : braces.Closed (Latex.colored (color term) (writeAll (dressed color) body)) :=
      Latex.level?_colored hterm.2 hclosed 0 false
    -- the colored content is closed, so the span ends where it was written to end
    have hread : EquationSpan.read?
        (dressed color term (writeAll (dressed color) body) ++ writeAll (dressed color) fs) =
          some (.tagged term (Latex.colored (color term) (writeAll (dressed color) body)),
            writeAll (dressed color) fs) :=
      EquationSpan.read?_eq_some_tagged_iff.2 ⟨rfl, hbrace, hcolored⟩
    have hbody' := ihBody hbody hcleanBody
    have hrest' := ihRest hrest hcleanRest
    rw [recolored_of_tagged color hread (uncolored?_eq_some_iff.2 rfl), hbody', hrest',
      Fragment.writeAll_tagged]

variable {color}

/-- A page shows the equation as the writer of math gives it. -/
theorem infix_of_document {math : MathWriter} {c : Content} {p : Palette} {page : Text}
    (h : document math c p = .ok page) : math true (equationText c p) <:+: page := by
  rw [document_guarded] at h
  rw [← eq_of_guarded_eq_ok h, text]
  have hline : "    ".toList ++ math true (equationText c p) ∈
      bodyLines c.documentTitle (math true (equationText c p)) (descriptionText c math)
        (definitions math c) := by
    simp only [bodyLines, List.mem_append, List.mem_cons, true_or, or_true]
  apply (List.suffix_append "    ".toList _).isInfix.trans
  apply Text.infix_unlines_of_mem
  exact List.mem_append_left _ (List.mem_append_left _ (List.mem_append_right _ hline))

end Html

/-! ### The equation of a source -/

namespace Source

variable {source : Text} {p : Palette}

/-- The terms of a source with their colors are such that the spans of its
page are read again. -/
theorem everyAll_readable
    (hnames : ∀ line ∈ blockLines source, ∀ name ∈ Mark.siteNames line, name.getLast? ≠ some '\\')
    (hcolors : ∀ term ∈ (Content.read source).termOrder, ∃ color,
      p.colorFor (Content.read source).termOrder term = .ok color) :
    EveryAll (fun term body => Html.Readable (p.color (Content.read source).termOrder) term ∧
      braces.Closed (writeAll Mark.write body)) (forest source) := by
  have hplain := Palette.forall_color (P := fun color => ∀ x ∈ color, x ≠ '{' ∧ x ≠ '}' ∧ x ≠ '\\')
    (fun color hcolor => no_brace_of_isHexColor (List.all_eq_true.1 p.all_hex color hcolor))
    (Palette.firstRefusal?_eq_none_iff.2 hcolors)
  have hterm : ∀ term ∈ termsAll (forest source), term.getLast? ≠ some '\\' ∧
      ∀ x ∈ p.color (Content.read source).termOrder term, x ≠ '{' ∧ x ≠ '}' ∧ x ≠ '\\' := by
    intro term hterm
    have horder : term ∈ (Content.read source).termOrder := by
      rw [termOrder_eq_eraseDups]
      exact List.mem_eraseDups.2 hterm
    rw [termsAll_forest] at hterm
    obtain ⟨line, hline, hname⟩ := List.mem_flatMap.1 hterm
    exact ⟨hnames line hline term hname, hplain term horder⟩
  have hevery := (Fragment.everyAll_iff_forall_mem_terms (Q := _)).2 hterm
  exact ((everyAll_forest source).and hevery).mono fun term body h =>
    ⟨⟨⟨h.1.1, h.2.1⟩, h.2.2⟩, h.1.2⟩

/-- No term of the equation is refused, if none of the order is. -/
theorem firstRefusal?_equationTerms (hclean : ¬ EquationSpan.opening <:+: source)
    (hnames : ∀ line ∈ blockLines source, ∀ name ∈ Mark.siteNames line, name.getLast? ≠ some '\\')
    (hcolors : ∀ term ∈ (Content.read source).termOrder, ∃ color,
      p.colorFor (Content.read source).termOrder term = .ok color) :
    p.firstRefusal? (Content.read source).termOrder (Content.read source).equationTerms = none := by
  rw [Palette.firstRefusal?_eq_none_iff]
  intro term hterm
  rw [equationTerms_read hclean hnames] at hterm
  apply hcolors
  rw [termOrder_eq_eraseDups]
  exact List.mem_eraseDups.2 hterm

/-- The equation of the article writes the forest of the source. -/
theorem equationText_latex (hclean : ¬ EquationSpan.opening <:+: source)
    (hnames : ∀ line ∈ blockLines source, ∀ name ∈ Mark.siteNames line, name.getLast? ≠ some '\\') :
    Latex.equationText (Content.read source) =
      writeAll (fun term => Latex.colored (colorName term)) (forest source) := by
  rw [Latex.equationText, forest_equation_read hclean hnames, Fragment.writeAll_tidyAll]

/-- The equation of the slides, without what drops anchors, is that of the
article. -/
theorem dropCoordinates_equationText (hclean : ¬ EquationSpan.opening <:+: source)
    (hpicture : ¬ Beamer.pictureStart <:+: source)
    (hnames : ∀ line ∈ blockLines source, ∀ name ∈ Mark.siteNames line, name.getLast? ≠ some '\\') :
    Beamer.dropCoordinates (Beamer.equationText (Content.read source)).1 =
      Latex.equationText (Content.read source) := by
  have hanchored : (Beamer.equationText (Content.read source)).1 =
      Fragment.writeAllFrom Beamer.anchored 0 (forest source) := by
    rw [Beamer.equationText, forest_equation_read hclean hnames, Fragment.writeAllFrom_tidyAll]
  have hwritten : ¬ Beamer.pictureStart <:+: writeAll Mark.write (forest source) := fun h =>
    hpicture (infix_of_infix_forest (by decide) (by decide) h)
  have hterms := (everyAll_forest source).mono fun term _ h => h.1
  have hdrop := Beamer.dropCoordinates_writeAllFrom hterms hwritten 0 Text.stops_nil
  rw [List.append_nil, Beamer.dropCoordinates_nil, List.append_nil] at hdrop
  rw [hanchored, hdrop, equationText_latex hclean hnames]

/-- The equation of the page, with the names of the colors, is that of the
article. -/
theorem recolored_equationText (hclean : ¬ EquationSpan.opening <:+: source)
    (hnames : ∀ line ∈ blockLines source, ∀ name ∈ Mark.siteNames line, name.getLast? ≠ some '\\')
    (hcolors : ∀ term ∈ (Content.read source).termOrder, ∃ color,
      p.colorFor (Content.read source).termOrder term = .ok color) :
    Html.recolored (p.color (Content.read source).termOrder)
        (Html.equationText (Content.read source) p) =
      Latex.equationText (Content.read source) := by
  have hdisplay : Html.equationText (Content.read source) p =
      writeAll (Html.dressed (p.color (Content.read source).termOrder)) (forest source) := by
    rw [Html.equationText, forest_equation_read hclean hnames, Fragment.writeAll_tidyAll]
    rfl
  have hwritten : ¬ EquationSpan.opening <:+: writeAll Mark.write (forest source) := fun h =>
    hclean (infix_of_infix_forest (by decide) (by decide) h)
  -- the contents leave the levels for the author, so they do on the page
  have hmark : Fragment.Steady (Html.Readable (p.color (Content.read source).termOrder))
      Mark.write := fun _ _ hterm hclosed m e => Mark.level?_write hterm.1.1 hclosed m e
  have hclosed := Fragment.everyAll_closed_congr hmark
    (Html.steady_dressed (p.color (Content.read source).termOrder))
    (everyAll_readable hnames hcolors)
  rw [hdisplay, Html.recolored_writeAll _ hclosed hwritten, equationText_latex hclean hnames]

end Source

/-- **One equation in three documents.**  If the author wrote no opening of a
span and no picture, no marked name ends in a backslash and all terms have
colors, then the slides without the commands that drop anchors have the
equation of the article, and so has the page, with the name of the color of
its term in every colored span. -/
theorem Content.equation_alike_in_documents (source : Text) (p : Palette)
    (hclean : ¬ EquationSpan.opening <:+: source) (hpicture : ¬ Beamer.pictureStart <:+: source)
    (hnames : ∀ line ∈ Source.blockLines source, ∀ name ∈ Mark.siteNames line,
      name.getLast? ≠ some '\\')
    (hcolors : ∀ term ∈ (read source).termOrder, ∃ color,
      p.colorFor (read source).termOrder term = .ok color) :
    ∃ colored anchored anchors display,
      Latex.equation (read source) p = .ok colored ∧
      Beamer.equation (read source) p = .ok (anchored, anchors) ∧
      Html.equation (read source) p = .ok display ∧
      (∀ math page, Html.document math (read source) p = .ok page → math true display <:+: page) ∧
      Beamer.dropCoordinates anchored = colored ∧
      Html.recolored (p.color (read source).termOrder) display = colored := by
  have hrefusal := Source.firstRefusal?_equationTerms hclean hnames hcolors
  refine ⟨Latex.equationText (read source), (Beamer.equationText (read source)).1,
    (Beamer.equationText (read source)).2, Html.equationText (read source) p,
    ?_, ?_, ?_, fun math page => Html.infix_of_document,
    Source.dropCoordinates_equationText hclean hpicture hnames,
    Source.recolored_equationText hclean hnames hcolors⟩
  · rw [Latex.equation_guarded, hrefusal, guarded_none]
  · rw [Beamer.equation_guarded, hrefusal, guarded_none]
  · rw [Html.equation_guarded, hrefusal, guarded_none]

/-- A source with a mark inside a mark, a name of several words and a term
that comes again. -/
def layeredSource : Text :=
  Text.unlines <| List.map String.toList
    ["$$", "\\mark[big o]\x7bx^\x7b\\mark[b]\x7by\x7d\x7d\x7d + \\htmlClass(z)", "$$", "$$",
     "\\mark[b]\x7b\\mark[big o]\x7bw\x7d\x7d", "$$"]

/-- The equation of that source in an article. -/
def layeredEquation : Text :=
  Text.joinWith ['\n'] <| List.map String.toList
    ["\\textcolor\x7btermbig o\x7d\x7bx^\x7b\\textcolor\x7btermb\x7d\x7by\x7d\x7d\x7d"
      ++ " + \\htmlClass(z)",
     "\\textcolor\x7btermb\x7d\x7b\\textcolor\x7btermbig o\x7d\x7bw\x7d\x7d"]

/-- A palette of two colors, one of them with a line feed behind it. -/
def twoColors : Palette := ⟨"two".toList, ["#1F77B4".toList, "#abc\n".toList], by decide⟩

theorem Content.equation_alike_in_documents_layeredSource :
    (¬ EquationSpan.opening <:+: layeredSource ∧ ¬ Beamer.pictureStart <:+: layeredSource ∧
      (∀ line ∈ Source.blockLines layeredSource, ∀ name ∈ Mark.siteNames line,
        name.getLast? ≠ some '\\') ∧
      ∀ term ∈ (read layeredSource).termOrder, ∃ color,
        twoColors.colorFor (read layeredSource).termOrder term = .ok color) ∧
    ∃ anchored anchors display,
      Beamer.equation (read layeredSource) twoColors = .ok (anchored, anchors) ∧
      Html.equation (read layeredSource) twoColors = .ok display ∧
      Beamer.dropCoordinates anchored = layeredEquation ∧
      Html.recolored (twoColors.color (read layeredSource).termOrder) display =
        Beamer.dropCoordinates anchored := by
  have hclean : ¬ EquationSpan.opening <:+: layeredSource := by decide +kernel
  have hpicture : ¬ Beamer.pictureStart <:+: layeredSource := by decide +kernel
  have hnames : ∀ line ∈ Source.blockLines layeredSource, ∀ name ∈ Mark.siteNames line,
      name.getLast? ≠ some '\\' := by decide
  have hrefusal : twoColors.firstRefusal? (read layeredSource).termOrder
      (read layeredSource).termOrder = none := by decide +kernel
  have hcolors := Palette.firstRefusal?_eq_none_iff.1 hrefusal
  have htext : Latex.equationText (read layeredSource) = layeredEquation := by decide +kernel
  obtain ⟨colored, anchored, anchors, display, hcolored, hanchored, hdisplay, -, hdrop,
      hrecolored⟩ :=
    equation_alike_in_documents layeredSource twoColors hclean hpicture hnames hcolors
  rw [Latex.equation_guarded] at hcolored
  rw [← eq_of_guarded_eq_ok hcolored] at hdrop hrecolored
  exact ⟨⟨hclean, hpicture, hnames, hcolors⟩, anchored, anchors, display, hanchored, hdisplay,
    hdrop.trans htext, hrecolored.trans hdrop.symm⟩

end AnnotatedEquation
