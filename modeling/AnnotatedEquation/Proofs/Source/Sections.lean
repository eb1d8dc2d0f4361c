/-
AnnotatedEquation/Proofs/Source/Sections.lean

A draft, read line by line, against the outline of its lines.

* `Draft.Open` tells which section is open behind some lines: that of the last
  heading;
* `Draft.Reads` tells that a draft holds what the outline of some lines gives.

Main statements: every line outside the equation blocks keeps a draft to the
outline (`Draft.Reads.addOutside`), so that a source says what the outline of
these lines gives (`Source.read_outline`).  A heading of the description may be
indented, and is no text of the section before it even so
(`Source.indented_heading_is_no_text`).
-/
import AnnotatedEquation.Proofs.Entries
import AnnotatedEquation.Proofs.Source.Outline
import AnnotatedEquation.Proofs.Source.Streams

namespace AnnotatedEquation

variable {line name : Text} {lines : List Text} {d : Draft} {current : Section}

/-! ### What the outline of some lines gives -/

namespace Source

/-- The lines of the description sections. -/
def descriptionText (lines : List Text) : List Text :=
  linesUnder Line.isProse (fun heading => Line.isDescriptionHeading heading.1) lines

/-- The definitions: under each name the lines that stand under its last
heading. -/
def outlinedDefinitions (lines : List Text) : Entries Text :=
  (definedNames lines).map fun name =>
    (name, Text.trim (Text.joinWith ['\n'] (bodyLines lines name)))

end Source

/-- The name of the definition that a section belongs to. -/
def Section.name? : Section → Option Text
  | .definition name _ => some name
  | _ => .none

open Source (descriptionText outlinedDefinitions definedNames headedNames bodyLines last?)

namespace Draft

/-- The section that is open behind some lines. -/
inductive Open (lines : List Text) : Section → Prop
  | nothing (h : ∀ l, last? Line.isHeading lines = some l → Line.definitionName? l.1 = some []) :
      Open lines .none
  | description {l : Text × Nat} (hlast : last? Line.isHeading lines = some l)
      (h : Line.isDescriptionHeading l.1) : Open lines .description
  | definition {l : Text × Nat} {name : Text} (hlast : last? Line.isHeading lines = some l)
      (hname : Line.definitionName? l.1 = some name) (hne : name ≠ []) :
      Open lines (.definition name (bodyLines lines name))

theorem Open.any_description (h : Open lines current) :
    (last? Line.isHeading lines).any (Line.isDescriptionHeading ·.1) ↔ current = .description := by
  cases h with
  | nothing h =>
    rcases hlast : last? Line.isHeading lines with - | l
    · simp
    · simp [(Line.of_definitionName?_eq_some (h l hlast)).1]
  | description hlast h => simp [hlast, h]
  | definition hlast hname hne => simp [hlast, (Line.of_definitionName?_eq_some hname).1]

theorem Open.any_name (h : Open lines current) (hne : name ≠ []) :
    (last? Line.isHeading lines).any (Line.definitionName? ·.1 = some name) ↔
      current.name? = some name := by
  cases h with
  | nothing h =>
    rcases hlast : last? Line.isHeading lines with - | l
    · simp [Section.name?]
    · simp [h l hlast, Ne.symm hne, Section.name?]
  | @description l hlast h =>
    simp [hlast, Line.definitionName?_of_isDescriptionHeading h, Section.name?]
  | definition hlast hname hne => simp [hlast, hname, Section.name?]

/-- The draft holds what the outline of some lines gives, its title apart. -/
structure Reads (lines : List Text) (d : Draft) : Prop where
  description : d.description = (descriptionText lines).map TagStyle.reference.runs
  definitions : d.allDefinitions = outlinedDefinitions lines
  current : Open lines d.current

/-! ### One line more -/

theorem Open.descriptionText_concat (h : Open lines current) :
    descriptionText (lines ++ [line]) = descriptionText lines ++
      if Line.isProse line ∧ current = .description then [line] else [] := by
  rw [descriptionText, Source.linesUnder_concat, descriptionText]
  simp only [Bool.and_eq_true, h.any_description]

theorem Open.bodyLines_concat (h : Open lines current) (hne : name ≠ [])
    (hname : Line.definitionName? line ≠ some name) :
    bodyLines (lines ++ [line]) name = bodyLines lines name ++
      if Line.isProse line ∧ current.name? = some name then [line] else [] := by
  rw [Source.bodyLines_concat hname]
  simp only [Bool.and_eq_true, h.any_name hne]

/-- Definitions with no new heading and no new text stay as they are. -/
theorem Open.outlinedDefinitions_concat (h : Open lines current)
    (hname : ∀ name, Line.definitionName? line = some name → name = [])
    (hline : Line.isProse line → current.name? = .none) :
    outlinedDefinitions (lines ++ [line]) = outlinedDefinitions lines := by
  have hheaded : headedNames (lines ++ [line]) = headedNames lines := by
    rw [Source.headedNames_concat]
    rcases hdefinition : Line.definitionName? line with - | name
    · simp
    · simp [hname name hdefinition]
  rw [outlinedDefinitions, definedNames, hheaded]
  apply List.map_congr_left
  intro name hmem
  have hne : name ≠ [] := Source.ne_nil_of_mem_definedNames hmem
  have hcond : ¬ (Line.isProse line ∧ current.name? = some name) := by
    rintro ⟨hprose, hcurrent⟩
    rw [hline hprose] at hcurrent
    cases hcurrent
  rw [h.bodyLines_concat hne fun h => hne (hname name h), if_neg hcond, List.append_nil]

/-- The section stays open behind a line that is no heading. -/
theorem Open.concat (h : Open lines current) (hheading : Line.isDescriptionHeading line = false)
    (hname : Line.definitionName? line = .none)
    (hline : Line.isProse line → current.name? = .none) : Open (lines ++ [line]) current := by
  have hlast : last? Line.isHeading (lines ++ [line]) = last? Line.isHeading lines := by
    rw [Source.last?_concat, Line.isHeading, hheading, hname]
    rfl
  cases h with
  | nothing h => exact .nothing (hlast ▸ h)
  | description hopen h => exact .description (hlast.trans hopen) h
  | @definition l name hopen hheaded hne =>
    have hbody : bodyLines (lines ++ [line]) name = bodyLines lines name := by
      have hcond : ¬ (Line.isProse line ∧ some name = some name) := by
        rintro ⟨hprose, -⟩
        cases hline hprose
      have hconcat : bodyLines (lines ++ [line]) name = _ :=
        (Open.definition hopen hheaded hne).bodyLines_concat hne (by simp [hname])
      rwa [Section.name?, if_neg hcond, List.append_nil] at hconcat
    rw [← hbody]
    exact .definition (hlast.trans hopen) hheaded hne

/-- A line that opens no section and is no text of the open one changes
nothing. -/
theorem Reads.skip (h : Reads lines d) (hheading : Line.isDescriptionHeading line = false)
    (hname : Line.definitionName? line = .none)
    (hline : Line.isProse line → d.current = .none) : Reads (lines ++ [line]) d := by
  have hopen : Line.isProse line → d.current.name? = .none := by
    intro hprose
    rw [hline hprose]
    rfl
  have hcond : ¬ (Line.isProse line ∧ d.current = .description) := by
    rintro ⟨hprose, hcurrent⟩
    rw [hline hprose] at hcurrent
    cases hcurrent
  refine ⟨?_, ?_, h.current.concat hheading hname hopen⟩
  · rw [h.current.descriptionText_concat, if_neg hcond, List.append_nil, h.description]
  · rw [h.definitions, h.current.outlinedDefinitions_concat (by simp [hname]) hopen]

/-- A line that opens a section is no text of the one before. -/
theorem Reads.enter (h : Reads lines d) {next : Section} (hline : Line.isProse line = false)
    (hdefinitions : (d.enter next).allDefinitions = outlinedDefinitions (lines ++ [line]))
    (hnext : Open (lines ++ [line]) next) : Reads (lines ++ [line]) (d.enter next) := by
  refine ⟨?_, hdefinitions, hnext⟩
  show d.description = _
  rw [h.current.descriptionText_concat, hline, if_neg (by simp), List.append_nil, h.description]

/-- A heading with a name puts its definition in place of an earlier one. -/
theorem Reads.put_heading (h : Reads lines d) (hne : name ≠ [])
    (hname : Line.definitionName? line = some name) :
    d.allDefinitions.put name [] = outlinedDefinitions (lines ++ [line]) := by
  have hheaded : headedNames (lines ++ [line]) = headedNames lines ++ [name] := by
    rw [Source.headedNames_concat, hname]
    simp [hne]
  rw [h.definitions, outlinedDefinitions, outlinedDefinitions, definedNames, definedNames,
    Entries.put_map_eraseDups, hheaded]
  apply List.map_congr_left
  intro name' hmem
  by_cases hname' : name' = name
  · rw [if_pos hname', hname', Source.bodyLines_concat_self hname]
    rfl
  · have hne' : name' ≠ [] := by
      rw [← hheaded] at hmem
      exact Source.ne_nil_of_mem_definedNames hmem
    have hprose := Line.isProse_of_definitionName? hname
    rw [if_neg hname', h.current.bodyLines_concat hne' (by simp [hname, Ne.symm hname']), hprose,
      if_neg (by simp), List.append_nil]

/-- A line of text goes to the definition that is open. -/
theorem Reads.put_body (h : Reads lines d) {body : List Text}
    (hname : Line.definitionName? line = .none) (hcurrent : d.current = .definition name body)
    (hbody : bodyLines (lines ++ [line]) name = body ++ [line]) (hmem : name ∈ definedNames lines) :
    d.allDefinitions.put name (Text.trim (Text.joinWith ['\n'] (body ++ [line]))) =
      outlinedDefinitions (lines ++ [line]) := by
  have hheaded : definedNames (lines ++ [line]) = definedNames lines := by
    rw [definedNames, Source.headedNames_concat_of_eq_none hname, definedNames]
  have hnodup : (definedNames lines).Nodup := nodup_eraseDups _
  rw [h.definitions, outlinedDefinitions, outlinedDefinitions, hheaded,
    Entries.put_map_of_mem hnodup hmem]
  apply List.map_congr_left
  intro name' hmem'
  by_cases hname' : name' = name
  · rw [if_pos hname', hname', hbody]
  · have hcond : ¬ (Line.isProse line ∧ d.current.name? = some name') := by
      rw [hcurrent]
      rintro ⟨-, hsame⟩
      exact hname' (Option.some.inj hsame).symm
    rw [if_neg hname', h.current.bodyLines_concat (Source.ne_nil_of_mem_definedNames hmem')
      (by simp [hname]), if_neg hcond, List.append_nil]

/-- The heading of a definition opens it, or no section if it has no name. -/
theorem Reads.openDefinition (h : Reads lines d) (hname : Line.definitionName? line = some name) :
    Reads (lines ++ [line]) (d.enter (if name = [] then .none else .definition name [])) := by
  have hprose := Line.isProse_of_definitionName? hname
  have hlast : last? Line.isHeading (lines ++ [line]) = some (line, lines.length) := by
    rw [Source.last?_concat, if_pos (Line.isHeading_of_definitionName? hname)]
  by_cases hne : name = []
  · rw [if_pos hne]
    refine h.enter hprose ?_ (.nothing ?_)
    · show d.allDefinitions = _
      rw [h.definitions,
        h.current.outlinedDefinitions_concat (by simp [hname, hne]) (by simp [hprose])]
    · rintro l hl
      obtain rfl := Option.some.inj (hlast.symm.trans hl)
      rw [hname, hne]
  · rw [if_neg hne]
    refine h.enter hprose ?_ ?_
    · show d.allDefinitions.put name [] = _
      exact h.put_heading hne hname
    · have hopen := Open.definition hlast hname hne
      rwa [Source.bodyLines_concat_self hname] at hopen

/-- A line of text goes to the description that is open. -/
theorem Reads.addDescription (h : Reads lines d)
    (hheading : Line.isDescriptionHeading line = false)
    (hname : Line.definitionName? line = .none) (hline : Line.isContent line)
    (hcurrent : d.current = .description) :
    Reads (lines ++ [line])
      { d with description := d.description ++ [TagStyle.reference.runs line] } := by
  have hprose := Line.isProse_of_isContent hline hheading
  have hopen : Line.isProse line → d.current.name? = .none := by
    intro _
    rw [hcurrent]
    rfl
  refine ⟨?_, ?_, h.current.concat hheading hname hopen⟩
  · show d.description ++ [_] = _
    rw [h.current.descriptionText_concat, if_pos ⟨hprose, hcurrent⟩, List.map_append,
      h.description]
    rfl
  · rw [h.current.outlinedDefinitions_concat (by simp [hname]) hopen, ← h.definitions]
    rfl

/-- A line of text goes to the body of the definition that is open. -/
theorem Reads.addBody (h : Reads lines d) {body : List Text}
    (hheading : Line.isDescriptionHeading line = false)
    (hname : Line.definitionName? line = .none) (hline : Line.isContent line)
    (hcurrent : d.current = .definition name body) :
    Reads (lines ++ [line]) { d with current := .definition name (body ++ [line]) } := by
  have hprose := Line.isProse_of_isContent hline hheading
  have hopen := h.current
  rw [hcurrent] at hopen
  cases hopen with
  | @definition l _ hlast hheaded hne =>
    have hbody : bodyLines (lines ++ [line]) name = _ :=
      h.current.bodyLines_concat hne (by simp [hname])
    rw [if_pos ⟨hprose, by rw [hcurrent]; rfl⟩] at hbody
    have hmem : name ∈ definedNames lines :=
      Source.mem_definedNames hheaded (Source.of_last?_eq_some hlast).2.1 hne
    refine ⟨?_, ?_, ?_⟩
    · have hcond : ¬ (Line.isProse line ∧ d.current = .description) := by
        rw [hcurrent]
        rintro ⟨-, hsame⟩
        cases hsame
      show d.description = _
      rw [h.current.descriptionText_concat, if_neg hcond, List.append_nil, h.description]
    · have hall : d.allDefinitions = d.definitions.put name
          (Text.trim (Text.joinWith ['\n'] (bodyLines lines name))) := by
        rw [allDefinitions, hcurrent]
      rw [← h.put_body hname hcurrent hbody hmem, hall, Entries.put_put]
      rfl
    · have hlast' : last? Line.isHeading (lines ++ [line]) = some l := by
        rw [Source.last?_concat, Line.isHeading, hheading, hname]
        exact hlast
      rw [← hbody]
      exact .definition hlast' hheaded hne

/-- **A line keeps a draft to the outline.** -/
theorem Reads.addOutside (h : Reads lines d) (line : Text) :
    Reads (lines ++ [line]) (d.addOutside line) := by
  have htaken := taken_addOutside d line
  generalize d.addOutside line = d' at htaken ⊢
  cases htaken with
  | title htitle ht =>
    obtain ⟨hheading, hname, hcontent⟩ := Line.of_title?_eq_some ht
    have hskip := h.skip hheading hname (by simp [Line.isProse, hcontent])
    exact ⟨hskip.description, hskip.definitions, hskip.current⟩
  | heading hheading =>
    have hname := Line.definitionName?_of_isDescriptionHeading hheading
    have hprose := Line.isProse_of_isDescriptionHeading hheading
    refine h.enter hprose ?_ ?_
    · show d.allDefinitions = _
      rw [h.definitions, h.current.outlinedDefinitions_concat (by simp [hname]) (by simp [hprose])]
    · refine .description (l := (line, lines.length)) ?_ hheading
      rw [Source.last?_concat, if_pos (Line.isHeading_of_isDescriptionHeading hheading)]
  | definition hheading hname => exact h.openDefinition hname
  | description hheading hname hline hcurrent =>
    exact h.addDescription hheading hname hline hcurrent
  | body hheading hname hline hcurrent => exact h.addBody hheading hname hline hcurrent
  | nothing htitle hheading hname hline =>
    refine h.skip hheading hname fun hprose => hline ?_
    rw [Line.isProse, Bool.and_eq_true] at hprose
    exact hprose.1

/-- **A draft holds what the outline gives** of the lines outside the
blocks. -/
theorem reads_foldl_addOutside (lines : List Text) : Reads lines (lines.foldl addOutside {}) := by
  induction lines using List.reverseRecOn with
  | nil => exact ⟨rfl, rfl, .nothing (by simp)⟩
  | append_singleton lines line ih =>
    rw [List.foldl_concat]
    exact ih.addOutside line

theorem title_addOutside (d : Draft) (line : Text) :
    (d.addOutside line).title = d.title.or (Line.title? line) := by
  have htaken := taken_addOutside d line
  generalize d.addOutside line = d' at htaken ⊢
  -- no other line gives a title
  cases htaken with
  | title htitle ht => rw [htitle, ht, Option.none_or]
  | heading h =>
    rw [Line.title?_eq_none_of_isHeading (Line.isHeading_of_isDescriptionHeading h), Option.or_none]
    rfl
  | definition h hname =>
    rw [Line.title?_eq_none_of_isHeading (Line.isHeading_of_definitionName? hname), Option.or_none]
    rfl
  | description h hname hline hcurrent =>
    rw [Line.title?_eq_none_of_isContent hline, Option.or_none]
  | body h hname hline hcurrent => rw [Line.title?_eq_none_of_isContent hline, Option.or_none]
  | nothing htitle h hname hline =>
    rcases ht : d.title with - | t
    · rw [htitle ht, Option.none_or]
    · rw [Option.some_or]

theorem title_foldl_addOutside (lines : List Text) (d : Draft) :
    (lines.foldl addOutside d).title =
      d.title.or ((lines.find? (Line.IsTitle ·)).map fun line => Text.trim line.tail) := by
  induction lines generalizing d with
  | nil => rw [List.find?_nil, Option.map_none, Option.or_none, List.foldl_nil]
  | cons line lines ih =>
    rw [List.foldl_cons, ih, title_addOutside, Line.title?_eq, List.find?_cons, Option.or_assoc]
    by_cases h : Line.IsTitle line
    · rw [if_pos h, decide_eq_true h, Option.some_or, Option.map_some]
    · rw [if_neg h, decide_eq_false h, Option.none_or]

end Draft

/-! ### Sources -/

namespace Source

variable (source : Text)

theorem reads_outside :
    (Draft.ofLines (Text.lines source)).outside.Reads (outsideLines source) := by
  rw [outside_ofLines_lines]
  exact Draft.reads_foldl_addOutside _

theorem title_read : (Content.read source).title =
    ((outsideLines source).find? (Line.IsTitle ·)).map fun line => Text.trim line.tail := by
  show (Draft.ofLines (Text.lines source)).outside.title = _
  rw [outside_ofLines_lines, Draft.title_foldl_addOutside, Option.none_or]

theorem description_read_outline : (Content.read source).description =
    Text.trim (Text.joinWith [' '] ((descriptionText (outsideLines source)).map fun line =>
      TagStyle.proseSpan.written (TagStyle.reference.runs line))) := by
  show Text.trim (Text.joinWith [' ']
    ((Draft.ofLines (Text.lines source)).outside.description.map _)) = _
  rw [(reads_outside source).description, List.map_map]
  rfl

theorem definitions_read :
    (Content.read source).definitions = outlinedDefinitions (outsideLines source) :=
  (reads_outside source).definitions

/-- **A source says what the outline of its lines gives.**  Of the lines
outside the equation blocks, the first title line gives the title, the text
under the headings of the description gives the description, and every name on
a heading has the text under the last heading with the name.  Text under a
heading without a name, or before all headings, goes nowhere. -/
theorem read_outline :
    (Content.read source).title =
        ((outsideLines source).find? (Line.IsTitle ·)).map (fun line => Text.trim line.tail) ∧
      (Content.read source).description =
        Text.trim (Text.joinWith [' ']
          ((linesUnder Line.isProse (fun heading => Line.isDescriptionHeading heading.1)
            (outsideLines source)).map
              fun line => TagStyle.proseSpan.written (TagStyle.reference.runs line))) ∧
      (Content.read source).definitions =
        (definedNames (outsideLines source)).map fun name =>
          (name, Text.trim (Text.joinWith ['\n'] (bodyLines (outsideLines source) name))) :=
  ⟨title_read source, description_read_outline source, definitions_read source⟩

/-- A source with a second, indented heading of the description. -/
def indentedSource : Text :=
  Text.unlines <| List.map String.toList
    ["## Description", "Some", "  ## Description", "words."]

/-- The indented heading is neither blank nor begins with a hash, and yet the
description does not hold it. -/
theorem indented_heading_is_no_text :
    (Content.read indentedSource).description ≠
      Text.trim (Text.joinWith [' ']
        ((linesUnder Line.isContent (fun heading => Line.isDescriptionHeading heading.1)
          (outsideLines indentedSource)).map
            fun line => TagStyle.proseSpan.written (TagStyle.reference.runs line))) := by
  decide +kernel

end Source

end AnnotatedEquation
