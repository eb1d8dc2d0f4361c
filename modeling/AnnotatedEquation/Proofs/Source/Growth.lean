/-
AnnotatedEquation/Proofs/Source/Growth.lean

A source that goes on behind a line feed.  Its lines stay, whatever they are
cut off in, and so does what they say: the texts grow at their ends, the
title stays, and only a heading that comes again takes the place of an
earlier definition.

* `Source.addedLines` are the lines outside the equation blocks that come
  with the rest of a source.

Main statement: `Source.read_grows`.
-/
import AnnotatedEquation.Proofs.Source.Equation
import AnnotatedEquation.Proofs.Source.Sections

namespace AnnotatedEquation.Source

variable (s t : Text)

/-! ### The lines of a longer source -/

theorem linesAt_isPrefix (wanted inBlock : Bool) :
    linesAt wanted inBlock (Text.lines s)
      <+: linesAt wanted inBlock (Text.lines (s ++ '\n' :: t)) := by
  obtain ⟨added, hadded⟩ := Text.lines_prefix_append s t
  rw [← hadded, linesAt_append]
  exact List.prefix_append _ _

theorem blockLines_isPrefix : blockLines s <+: blockLines (s ++ '\n' :: t) :=
  linesAt_isPrefix s t true false

theorem outsideLines_isPrefix : outsideLines s <+: outsideLines (s ++ '\n' :: t) :=
  linesAt_isPrefix s t false false

/-- The lines outside the equation blocks that come with the rest of a
source. -/
def addedLines : List Text := (outsideLines (s ++ '\n' :: t)).drop (outsideLines s).length

theorem outsideLines_append :
    outsideLines (s ++ '\n' :: t) = outsideLines s ++ addedLines s t :=
  List.prefix_append_drop (outsideLines_isPrefix s t)

/-! ### What a longer source says -/

theorem equation_isPrefix :
    (Content.read s).equation <+: (Content.read (s ++ '\n' :: t)).equation := by
  have hequation : ∀ source, (Content.read source).equation = Text.trim (Text.joinWith ['\n']
      ((blockLines source).map fun line =>
        Fragment.writeAll EquationSpan.write (TagStyle.mark.forest line))) := by
    intro source
    show Text.trim (Text.joinWith ['\n'] ((Draft.ofLines (Text.lines source)).equation.map _)) = _
    rw [Draft.equation_ofLines, List.map_map]
    rfl
  rw [hequation, hequation]
  exact Text.trim_joinWith_prefix _ ((blockLines_isPrefix s t).map _)

theorem termOrder_isPrefix :
    (Content.read s).termOrder <+: (Content.read (s ++ '\n' :: t)).termOrder := by
  obtain ⟨more, hmore⟩ := blockLines_isPrefix s t
  rw [termOrder_eq_eraseDups, termOrder_eq_eraseDups, termsAll_forest, termsAll_forest, ← hmore,
    List.flatMap_append, List.eraseDups_append]
  exact List.prefix_append _ _

theorem description_isPrefix :
    (Content.read s).description <+: (Content.read (s ++ '\n' :: t)).description := by
  rw [description_read_outline, description_read_outline, outsideLines_append]
  exact Text.trim_joinWith_prefix _ ((linesUnder_prefix_append _ _).map _)

theorem title_of_title {title : Text} (h : (Content.read s).title = some title) :
    (Content.read (s ++ '\n' :: t)).title = some title := by
  rw [title_read, Option.map_eq_some_iff] at h
  obtain ⟨line, hline, rfl⟩ := h
  rw [title_read, outsideLines_append, List.find?_append, hline]
  rfl

theorem keys_outlinedDefinitions (lines : List Text) :
    (outlinedDefinitions lines).keys = definedNames lines := by
  rw [outlinedDefinitions, Entries.keys, List.map_map]
  exact List.map_id _

theorem keys_isPrefix :
    (Content.read s).definitions.keys <+: (Content.read (s ++ '\n' :: t)).definitions.keys := by
  rw [definitions_read, definitions_read, keys_outlinedDefinitions, keys_outlinedDefinitions,
    outsideLines_append]
  exact definedNames_prefix_append _ _

theorem body_isPrefix {name body : Text}
    (hbody : (Content.read s).definitions.get? name = some body)
    (hname : ∀ line ∈ addedLines s t, Line.definitionName? line ≠ some name) :
    ∃ longer, (Content.read (s ++ '\n' :: t)).definitions.get? name = some longer ∧
      body <+: longer := by
  rw [definitions_read, outlinedDefinitions] at hbody
  have hmem : name ∈ definedNames (outsideLines s) := by
    by_contra hmem
    rw [Entries.get?_map_of_not_mem hmem] at hbody
    cases hbody
  rw [Entries.get?_map_of_mem hmem] at hbody
  obtain rfl := Option.some.inj hbody
  have hmem' := (definedNames_prefix_append (outsideLines s) (addedLines s t)).subset hmem
  rw [definitions_read, outsideLines_append, outlinedDefinitions, Entries.get?_map_of_mem hmem']
  exact ⟨_, rfl, Text.trim_joinWith_prefix _ (bodyLines_prefix_append _ hname)⟩

/-- **A source grows with its text.**  Behind a line feed nothing can take
back what was said: the order of the terms, the equation and the description
go on at their ends, the title stays, the definitions keep their order, and
their bodies go on unless a new heading takes their name. -/
theorem read_grows :
    (Content.read s).termOrder <+: (Content.read (s ++ '\n' :: t)).termOrder ∧
      (Content.read s).equation <+: (Content.read (s ++ '\n' :: t)).equation ∧
      (Content.read s).description <+: (Content.read (s ++ '\n' :: t)).description ∧
      (∀ title, (Content.read s).title = some title →
        (Content.read (s ++ '\n' :: t)).title = some title) ∧
      (Content.read s).definitions.keys <+: (Content.read (s ++ '\n' :: t)).definitions.keys ∧
      ∀ name body, (Content.read s).definitions.get? name = some body →
        (∀ line ∈ addedLines s t, Line.definitionName? line ≠ some name) →
        ∃ longer, (Content.read (s ++ '\n' :: t)).definitions.get? name = some longer ∧
          body <+: longer :=
  ⟨termOrder_isPrefix s t, equation_isPrefix s t, description_isPrefix s t,
    fun _ h => title_of_title s t h, keys_isPrefix s t, fun _ _ h hname => body_isPrefix s t h hname⟩

/-- A source cut off inside a definition, in the middle of a boundary of two
characters. -/
def cutSource : Text :=
  "# Sum\n$$\n\\mark[a]\x7bx\x7d\n$$\n## Description\nThe [first]\x7b.a\x7d\n## .a\nAlpha\r".toList

/-- What follows: the definition goes on, and a line inside a block only looks
like another heading of it. -/
def restSource : Text :=
  Text.unlines <| List.map String.toList
    ["is first.", "# Late", "$$", "+ \\mark[b]\x7by\x7d", "## .a", "$$", "and more", "## .b",
      "Beta."]

theorem read_grows_cutSource :
    ((Content.read cutSource).title = some "Sum".toList ∧
      (Content.read cutSource).definitions.get? ['a'] = some "Alpha".toList ∧
      ∀ line ∈ addedLines cutSource restSource, Line.definitionName? line ≠ some ['a']) ∧
      (Content.read cutSource).termOrder <+:
        (Content.read (cutSource ++ '\n' :: restSource)).termOrder ∧
      (Content.read (cutSource ++ '\n' :: restSource)).title = some "Sum".toList ∧
      ∃ longer,
        (Content.read (cutSource ++ '\n' :: restSource)).definitions.get? ['a'] = some longer ∧
          "Alpha".toList <+: longer := by
  have hcut : (Content.read cutSource).title = some "Sum".toList ∧
      (Content.read cutSource).definitions.get? ['a'] = some "Alpha".toList ∧
      ∀ line ∈ addedLines cutSource restSource, Line.definitionName? line ≠ some ['a'] := by
    decide
  obtain ⟨htitle, hbody, hname⟩ := hcut
  obtain ⟨horder, -, -, htitles, -, hbodies⟩ := read_grows cutSource restSource
  exact ⟨⟨htitle, hbody, hname⟩, horder, htitles _ htitle, hbodies _ _ hbody hname⟩

end AnnotatedEquation.Source
