/-
AnnotatedEquation/Proofs/Source/Streams.lean

A source as two streams of lines, those inside its equation blocks and those
outside.  The delimiters only tell which stream a line goes to: wherever a
block is cut off or put, both streams run on behind it as if it were not
there.

* `Draft.outside` is what a draft holds of the lines outside the blocks, with
  the section that is open.

Main statements: what stands outside the blocks is read as if there were no
blocks (`Draft.outside_foldl_add`), and sources with the same two streams say
the same (`Source.read_congr_streams`).
-/
import AnnotatedEquation.Proofs.Source.Lines

namespace AnnotatedEquation

variable {d d' : Draft}

/-! ### What a draft holds of either stream -/

namespace Draft

/-- The draft without what it holds of equation blocks. -/
def outside (d : Draft) : Draft := { d with inBlock := false, equation := [] }

theorem outside_addOutside (d : Draft) (line : Text) :
    (d.addOutside line).outside = d.outside.addOutside line := by
  have htitle : d.outside.title = d.title := rfl
  have hcurrent : d.outside.current = d.current := rfl
  simp only [addOutside, htitle, hcurrent]
  -- both drafts take the line in the same way
  split
  · rfl
  · split
    · rfl
    · split
      · rfl
      · rfl
      · split
        · split <;> rfl
        · rfl

/-- **The lines outside the blocks are read as if there were no blocks.** -/
theorem outside_foldl_add (lines : List Text) (d : Draft) :
    (lines.foldl add d).outside =
      (Source.linesAt false d.inBlock lines).foldl addOutside d.outside := by
  induction lines generalizing d with
  | nil => rfl
  | cons line lines ih =>
    rw [List.foldl_cons, ih, Source.linesAt, add]
    by_cases hdelimiter : Line.isBlockDelimiter line
    · rw [if_pos hdelimiter, if_pos hdelimiter]
      rfl
    · rw [if_neg hdelimiter, if_neg hdelimiter]
      rcases hblock : d.inBlock with - | -
      · simp [inBlock_addOutside, hblock, outside_addOutside]
      · simp [outside]

/-- A draft says no more than it holds of the two streams. -/
theorem content_congr (hequation : d.equation = d'.equation) (houtside : d.outside = d'.outside) :
    d.content = d'.content := by
  have hparts : ∀ d : Draft, d.content = { d.outside with equation := d.equation }.content :=
    fun _ => rfl
  rw [hparts d, hparts d', hequation, houtside]

end Draft

/-! ### Sources with the same streams -/

namespace Source

theorem outside_ofLines_lines (source : Text) :
    (Draft.ofLines (Text.lines source)).outside
      = (outsideLines source).foldl Draft.addOutside {} := by
  rw [Draft.ofLines, Draft.outside_foldl_add]
  rfl

/-- **The equation blocks and the prose of a source are independent.**  The
equation and the order of the terms depend on the lines inside the blocks
alone, and the title, the description and the definitions on the lines
outside; so sources with the same lines on either side say the same, wherever
their blocks stand and however these are cut. -/
theorem read_congr_streams (s t : Text) :
    (blockLines s = blockLines t →
      (Content.read s).equation = (Content.read t).equation ∧
        (Content.read s).termOrder = (Content.read t).termOrder) ∧
      (outsideLines s = outsideLines t →
        (Content.read s).title = (Content.read t).title ∧
          (Content.read s).description = (Content.read t).description ∧
          (Content.read s).definitions = (Content.read t).definitions) ∧
      (blockLines s = blockLines t → outsideLines s = outsideLines t →
        Content.read s = Content.read t) := by
  have hinside : blockLines s = blockLines t →
      (Draft.ofLines (Text.lines s)).equation = (Draft.ofLines (Text.lines t)).equation := by
    intro h
    rw [Draft.equation_ofLines, Draft.equation_ofLines]
    exact congrArg (List.map _) h
  have houtside : outsideLines s = outsideLines t →
      (Draft.ofLines (Text.lines s)).outside = (Draft.ofLines (Text.lines t)).outside := by
    intro h
    rw [outside_ofLines_lines, outside_ofLines_lines, h]
  refine ⟨fun h => ?_, fun h => ?_, fun hblock h => ?_⟩
  · have hequation := hinside h
    constructor
    · show Text.trim (Text.joinWith _ ((Draft.ofLines (Text.lines s)).equation.map _)) = _
      rw [hequation]
      rfl
    · show ((Draft.ofLines (Text.lines s)).equation.flatMap Fragment.termsAll).eraseDups = _
      rw [hequation]
      rfl
  · have hdraft := houtside h
    have htitle := congrArg Draft.title hdraft
    have hdescription := congrArg Draft.description hdraft
    have hdefinitions := congrArg Draft.allDefinitions hdraft
    refine ⟨htitle, ?_, hdefinitions⟩
    show Text.trim (Text.joinWith _ ((Draft.ofLines (Text.lines s)).outside.description.map _)) = _
    rw [hdescription]
    rfl
  · exact Draft.content_congr (hinside hblock) (houtside h)

/-- A source with all of its equation in one block. -/
def gatheredSource : Text :=
  Text.unlines <| List.map String.toList
    ["# Sum", "$$", "\\mark[a]\x7bx\x7d", "+ y", "$$", "## Description", "The [first]\x7b.a\x7d",
     "thing.", "## .a", "Alpha."]

/-- The same lines, in a block before the title, an empty one inside the
description, and one that is never closed. -/
def scatteredSource : Text :=
  Text.unlines <| List.map String.toList
    ["$$", "\\mark[a]\x7bx\x7d", " $$", "# Sum", "## Description", "The [first]\x7b.a\x7d", "$$",
     "$$", "thing.", "## .a", "Alpha.", "$$", "+ y"]

theorem read_congr_streams_scatteredSource :
    (blockLines gatheredSource = blockLines scatteredSource ∧
      outsideLines gatheredSource = outsideLines scatteredSource) ∧
      (Content.read gatheredSource).termOrder = (Content.read scatteredSource).termOrder ∧
      (Content.read gatheredSource).description = (Content.read scatteredSource).description ∧
      Content.read gatheredSource = Content.read scatteredSource := by
  have hstreams : blockLines gatheredSource = blockLines scatteredSource ∧
      outsideLines gatheredSource = outsideLines scatteredSource := by decide
  obtain ⟨hblock, houtside⟩ := hstreams
  obtain ⟨hinner, houter, hall⟩ := read_congr_streams gatheredSource scatteredSource
  exact ⟨⟨hblock, houtside⟩, (hinner hblock).2, (houter houtside).2.1, hall hblock houtside⟩

end Source

end AnnotatedEquation
