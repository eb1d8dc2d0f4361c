/-
AnnotatedEquation/Proofs/Source/Equation.lean

The equation of a source and the order of its terms, told by the lines
inside the equation blocks.

`Source.forest` is the forest of all these lines, put together and trimmed.
In the author's writing it is the text of the equation blocks, and in the
form that goes to the documents it is the equation of the content.

Main statements: nothing of the blocks is lost or changed on the way
(`Source.rewrite_equation_read`), and the term order lists the names of the
sites of the block lines (`Source.termOrder_read`).
-/
import AnnotatedEquation.Proofs.Markup.ReadBack
import AnnotatedEquation.Proofs.Source.Lines

namespace AnnotatedEquation

open Delimiters (braces)
open Fragment (EveryAll writeAll termsAll)

namespace Source

variable (source : Text)

/-! ### The forest of the equation -/

/-- The forest of the lines inside the equation blocks, one line after the
other, without the blanks at the two ends. -/
def forest : List Fragment :=
  Fragment.trimAll (Fragment.joinAll ['\n'] ((blockLines source).map TagStyle.mark.forest))

theorem writeAll_mark_forest :
    writeAll Mark.write (forest source) = Text.trim (Text.joinWith ['\n'] (blockLines source)) := by
  have hline : writeAll Mark.write ∘ TagStyle.mark.forest = id :=
    funext fun line => TagStyle.write_forest TagStyle.mark line
  rw [forest, Fragment.writeAll_trimAll Mark.solid_write, Fragment.writeAll_joinAll, List.map_map,
    hline, List.map_id]

theorem equation_read :
    (Content.read source).equation = writeAll EquationSpan.write (forest source) := by
  rw [forest, Fragment.writeAll_trimAll EquationSpan.solid_write, Fragment.writeAll_joinAll]
  show Text.trim (Text.joinWith ['\n'] ((Draft.ofLines (Text.lines source)).equation.map _)) = _
  rw [Draft.equation_ofLines]
  rfl

theorem termsAll_forest :
    termsAll (forest source) = (blockLines source).flatMap Mark.siteNames := by
  rw [forest, Fragment.termsAll_trimAll, Fragment.termsAll_joinAll, List.flatMap_map]
  apply List.flatMap_congr
  intro line _
  exact (Mark.siteNames_eq_termsAll line).symm

/-- The term order lists the terms of the forest, every term at its first
place. -/
theorem termOrder_eq_eraseDups :
    (Content.read source).termOrder = (termsAll (forest source)).eraseDups := by
  rw [termsAll_forest]
  show ((Draft.ofLines (Text.lines source)).equation.flatMap termsAll).eraseDups = _
  rw [Draft.equation_ofLines, List.flatMap_map]
  apply congrArg List.eraseDups
  apply List.flatMap_congr
  intro line _
  exact (Mark.siteNames_eq_termsAll line).symm

theorem everyAll_forest :
    EveryAll (fun term body => Mark.IsTermName term ∧ braces.Closed (writeAll Mark.write body))
      (forest source) := by
  rw [forest, Fragment.everyAll_trimAll]
  refine Fragment.everyAll_joinAll fun fs hfs => ?_
  obtain ⟨line, -, rfl⟩ := List.mem_map.1 hfs
  exact Mark.everyAll_forest line

variable {source}

/-- What the author's writing of the equation holds stands in the source, if
it runs over no end of a line. -/
theorem infix_of_infix_forest {p : Text} (hp : p ≠ []) (hn : '\n' ∉ p)
    (h : p <:+: writeAll Mark.write (forest source)) : p <:+: source := by
  rw [writeAll_mark_forest] at h
  obtain ⟨line, hline, hpline⟩ := (Text.infix_joinWith_iff hp hn).1 (h.trans (Text.isInfix_trim _))
  exact hpline.trans (infix_of_mem_blockLines hline)

/-- The spans of the equation are read back, if no marked name ends in a
backslash and the author wrote no opening of a span. -/
theorem forest_equation_read (hclean : ¬ EquationSpan.opening <:+: source)
    (hnames : ∀ line ∈ blockLines source, ∀ name ∈ Mark.siteNames line, name.getLast? ≠ some '\\') :
    EquationSpan.forest (Content.read source).equation = Fragment.tidyAll (forest source) := by
  have hlast : EveryAll (fun term _ => term.getLast? ≠ some '\\') (forest source) := by
    refine (Fragment.everyAll_iff_forall_mem_terms (Q := _)).2 fun term hterm => ?_
    rw [termsAll_forest] at hterm
    obtain ⟨line, hline, hname⟩ := List.mem_flatMap.1 hterm
    exact hnames line hline term hname
  have hevery := ((everyAll_forest source).and hlast).mono
    fun term body h => (⟨⟨h.1.1, h.2⟩, h.1.2⟩ :
      (Mark.IsTermName term ∧ term.getLast? ≠ some '\\') ∧ braces.Closed (writeAll Mark.write body))
  have hwritten : ¬ EquationSpan.opening <:+: writeAll Mark.write (forest source) := fun h =>
    hclean (infix_of_infix_forest (by decide) (by decide) h)
  rw [equation_read, EquationSpan.forest_writeAll (EquationSpan.everyAll_closed hevery) hwritten]

/-! ### The way there and back -/

/-- **The equation holds what stands in the equation blocks.**  Its spans,
rewritten as marks, give the trimmed text of the blocks, and they carry the
names of the sites of the block lines in the order in which these open, with
repetitions. -/
theorem rewrite_equation_read (source : Text) (hclean : ¬ EquationSpan.opening <:+: source)
    (hnames : ∀ line ∈ blockLines source, ∀ name ∈ Mark.siteNames line, name.getLast? ≠ some '\\') :
    TagStyle.equationSpan.rewrite Mark.write (Content.read source).equation =
        Text.trim (Text.joinWith ['\n'] (blockLines source)) ∧
      termsAll (EquationSpan.forest (Content.read source).equation) =
        (blockLines source).flatMap Mark.siteNames := by
  have hforest := forest_equation_read hclean hnames
  constructor
  · calc TagStyle.equationSpan.rewrite Mark.write (Content.read source).equation
        = writeAll Mark.write (Fragment.tidyAll (forest source)) := congrArg _ hforest
      _ = writeAll Mark.write (forest source) := Fragment.writeAll_tidyAll _ _
      _ = Text.trim (Text.joinWith ['\n'] (blockLines source)) := writeAll_mark_forest source
  · rw [hforest, Fragment.termsAll_tidyAll, termsAll_forest]

/-- A source with a mark inside a mark, a mark without a name and one that is
never closed. -/
def nestedSource : Text :=
  Text.unlines <| List.map String.toList
    ["$$", " \\mark[a]\x7bx^\x7b\\mark[b]\x7by\x7d\x7d\x7d + \\mark[]\x7bz\x7d", "$$", "$$",
     "\\mark[c]\x7b\\mark[a]\x7bw\x7d", "$$"]

theorem rewrite_equation_read_nestedSource :
    (¬ EquationSpan.opening <:+: nestedSource ∧
      ∀ line ∈ blockLines nestedSource, ∀ name ∈ Mark.siteNames line,
        name.getLast? ≠ some '\\') ∧
      TagStyle.equationSpan.rewrite Mark.write (Content.read nestedSource).equation =
        Text.joinWith ['\n'] (List.map String.toList
          ["\\mark[a]\x7bx^\x7b\\mark[b]\x7by\x7d\x7d\x7d + \\mark[]\x7bz\x7d",
           "\\mark[c]\x7b\\mark[a]\x7bw\x7d"]) ∧
      termsAll (EquationSpan.forest (Content.read nestedSource).equation) =
        [['a'], ['b'], ['a']] := by
  have hsource : ¬ EquationSpan.opening <:+: nestedSource ∧
      ∀ line ∈ blockLines nestedSource, ∀ name ∈ Mark.siteNames line,
        name.getLast? ≠ some '\\' := by decide +kernel
  obtain ⟨hrewrite, hterms⟩ := rewrite_equation_read nestedSource hsource.1 hsource.2
  exact ⟨hsource, hrewrite.trans (by decide), hterms.trans (by decide)⟩

/-- **The term order lists the names of the sites** of the block lines, line
by line and along each line, every name at its first place. -/
theorem termOrder_read (source : Text) :
    (Content.read source).termOrder = ((blockLines source).flatMap Mark.siteNames).eraseDups := by
  rw [termOrder_eq_eraseDups, termsAll_forest]

end Source

end AnnotatedEquation
