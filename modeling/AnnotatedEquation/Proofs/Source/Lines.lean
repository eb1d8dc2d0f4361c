/-
AnnotatedEquation/Proofs/Source/Lines.lean

Which lines of a source make its equation and its description, told of the
lines alone, and what a draft holds after some lines.

* `Source.blockLines` are the lines inside the equation blocks, and
  `Source.outsideLines` those outside;
* `Source.descriptionLines` are the lines of the description sections.

Main statements: a draft collects the forests of the block lines
(`Draft.equation_foldl_add`) and the runs of the description lines
(`Draft.description_foldl_add`), whatever stands between them.
-/
import AnnotatedEquation.Proofs.Text.Part
import AnnotatedEquation.Source.Draft

namespace AnnotatedEquation

variable {line t : Text} {d : Draft}

/-! ### Kinds of lines -/

namespace Line

/-- A title line opens no section and says nothing beside the title. -/
theorem of_title?_eq_some (h : title? line = some t) :
    isDescriptionHeading line = false ∧ definitionName? line = none ∧ isContent line = false := by
  unfold title? at h
  split at h
  · next b c rest =>
    obtain ⟨⟨hb, -⟩, -⟩ := Option.ite_none_right_eq_some.1 h
    have hne : b ≠ '#' := by
      rintro rfl
      exact absurd hb (by decide)
    refine ⟨?_, ?_, by simp [isContent]⟩
    · -- a trimmed line still begins with the hash and the blank behind it
      rw [isDescriptionHeading, decide_eq_false_iff_not]
      intro htrim
      have hstart : Text.trimStart ('#' :: b :: c :: rest) = '#' :: b :: c :: rest :=
        Text.trimStart_cons (by decide) _
      have hprefix := Text.isPrefix_trimEnd ('#' :: b :: c :: rest)
      rw [Text.trim, hstart] at htrim
      rw [htrim] at hprefix
      have hsecond := (List.cons_prefix_cons.1 hprefix).2
      exact hne (List.cons_prefix_cons.1 hsecond).1.symm
    · simp [definitionName?, Text.after?, Ne.symm hne]
  · simp at h

end Line

/-! ### Lines inside and outside equation blocks -/

namespace Source

/-- The lines that stand inside the equation blocks, or those that stand
outside; `inBlock` tells where the first line stands. -/
def linesAt (wanted inBlock : Bool) : List Text → List Text
  | [] => []
  | line :: lines =>
    if Line.isBlockDelimiter line then linesAt wanted (!inBlock) lines
    else if inBlock = wanted then line :: linesAt wanted inBlock lines
    else linesAt wanted inBlock lines

/-- The lines inside the equation blocks of a source. -/
def blockLines (source : Text) : List Text := linesAt true false (Text.lines source)

/-- The lines outside the equation blocks of a source. -/
def outsideLines (source : Text) : List Text := linesAt false false (Text.lines source)

/-- The lines that say something in description sections; `inDescription`
tells whether the first line stands in one. -/
def proseLines (inDescription : Bool) : List Text → List Text
  | [] => []
  | line :: lines =>
    if Line.isDescriptionHeading line then proseLines true lines
    else if (Line.definitionName? line).isSome then proseLines false lines
    else if inDescription ∧ Line.isContent line then line :: proseLines inDescription lines
    else proseLines inDescription lines

/-- The lines of the description of a source. -/
def descriptionLines (source : Text) : List Text :=
  proseLines false (linesAt false false (Text.lines source))

/-- An odd number of the lines are delimiters, so that what follows them
stands on the other side. -/
def crosses (lines : List Text) : Bool := lines.countP Line.isBlockDelimiter % 2 = 1

theorem crosses_cons (line : Text) (lines : List Text) :
    crosses (line :: lines) = (Line.isBlockDelimiter line ^^ crosses lines) := by
  rw [crosses, crosses, List.countP_cons]
  by_cases h : Line.isBlockDelimiter line
  · rw [if_pos h, h, Bool.true_xor, ← decide_not]
    apply decide_eq_decide.2
    omega
  · rw [if_neg h, eq_false_of_ne_true h, Bool.false_xor, Nat.add_zero]

/-- A line stands inside a block if an odd number of delimiters stand before
it, and outside if an even number do. -/
theorem linesAt_append (wanted inBlock : Bool) (u v : List Text) :
    linesAt wanted inBlock (u ++ v) =
      linesAt wanted inBlock u ++ linesAt wanted (inBlock ^^ crosses u) v := by
  induction u generalizing inBlock with
  | nil => simp [linesAt, crosses]
  | cons line u ih =>
    rw [List.cons_append, linesAt, linesAt, crosses_cons]
    by_cases h : Line.isBlockDelimiter line
    · rw [if_pos h, if_pos h, ih, h, Bool.true_xor, Bool.not_xor, Bool.xor_not]
    · rw [if_neg h, if_neg h, ih, eq_false_of_ne_true h, Bool.false_xor]
      split <;> rfl

theorem mem_of_mem_linesAt {wanted inBlock : Bool} {lines : List Text}
    (h : line ∈ linesAt wanted inBlock lines) : line ∈ lines := by
  induction lines generalizing inBlock with
  | nil => simp [linesAt] at h
  | cons l lines ih =>
    rw [linesAt] at h
    split at h
    · exact List.mem_cons_of_mem _ (ih h)
    · split at h
      · rcases List.mem_cons.1 h with rfl | h
        · exact List.mem_cons_self
        · exact List.mem_cons_of_mem _ (ih h)
      · exact List.mem_cons_of_mem _ (ih h)

theorem mem_of_mem_proseLines {inDescription : Bool} {lines : List Text}
    (h : line ∈ proseLines inDescription lines) : line ∈ lines := by
  induction lines generalizing inDescription with
  | nil => simp [proseLines] at h
  | cons l lines ih =>
    rw [proseLines] at h
    split at h
    · exact List.mem_cons_of_mem _ (ih h)
    · split at h
      · exact List.mem_cons_of_mem _ (ih h)
      · split at h
        · rcases List.mem_cons.1 h with rfl | h
          · exact List.mem_cons_self
          · exact List.mem_cons_of_mem _ (ih h)
        · exact List.mem_cons_of_mem _ (ih h)

/-- A line of an equation block is a part of the source. -/
theorem infix_of_mem_blockLines {source : Text} (h : line ∈ blockLines source) :
    line <:+: source :=
  Text.infix_of_mem_lines (mem_of_mem_linesAt h)

/-- A line of the description is a part of the source. -/
theorem infix_of_mem_descriptionLines {source : Text} (h : line ∈ descriptionLines source) :
    line <:+: source :=
  Text.infix_of_mem_lines (mem_of_mem_linesAt (mem_of_mem_proseLines h))

end Source

/-! ### One line more -/

namespace Draft

/-- What a line outside equation blocks can do to a draft. -/
inductive Taken (d : Draft) (line : Text) : Draft → Prop
  | title {t : Text} (htitle : d.title = none) (h : Line.title? line = some t) :
      Taken d line { d with title := some t }
  | heading (h : Line.isDescriptionHeading line) : Taken d line (d.enter .description)
  | definition {name : Text} (h : Line.isDescriptionHeading line = false)
      (hname : Line.definitionName? line = some name) :
      Taken d line (d.enter (if name = [] then .none else .definition name []))
  | description (h : Line.isDescriptionHeading line = false)
      (hname : Line.definitionName? line = none) (hline : Line.isContent line)
      (hcurrent : d.current = .description) :
      Taken d line { d with description := d.description ++ [TagStyle.reference.runs line] }
  | body {name : Text} {body : List Text} (h : Line.isDescriptionHeading line = false)
      (hname : Line.definitionName? line = none) (hline : Line.isContent line)
      (hcurrent : d.current = .definition name body) :
      Taken d line { d with current := .definition name (body ++ [line]) }
  | nothing (htitle : d.title = none → Line.title? line = none)
      (h : Line.isDescriptionHeading line = false) (hname : Line.definitionName? line = none)
      (hline : Line.isContent line = true → d.current = .none) : Taken d line d

theorem taken_addOutside (d : Draft) (line : Text) : Taken d line (d.addOutside line) := by
  unfold addOutside
  split
  · next htitle h => exact .title htitle h
  · next htitle =>
    split
    · next h => exact .heading h
    · next h =>
      have h' : Line.isDescriptionHeading line = false := by simpa using h
      have hnone : d.title = none → Line.title? line = none := fun hd => by
        rcases ht : Line.title? line with - | t
        · rfl
        · exact (htitle t hd ht).elim
      split
      · next hname => exact .definition h' hname
      · next name hne hname =>
        have := Taken.definition (d := d) h' hname
        rwa [if_neg hne] at this
      · next hname =>
        split
        · next hline =>
          split
          · next hcurrent => exact .nothing hnone h' hname fun _ => hcurrent
          · next hcurrent => exact .description h' hname hline hcurrent
          · next hcurrent => exact .body h' hname hline hcurrent
        · next hline => exact .nothing hnone h' hname fun hc => absurd hc hline

theorem inBlock_addOutside (d : Draft) (line : Text) :
    (d.addOutside line).inBlock = d.inBlock := by
  have htaken := taken_addOutside d line
  generalize d.addOutside line = d' at htaken ⊢
  cases htaken <;> rfl

theorem equation_addOutside (d : Draft) (line : Text) :
    (d.addOutside line).equation = d.equation := by
  have htaken := taken_addOutside d line
  generalize d.addOutside line = d' at htaken ⊢
  cases htaken <;> rfl

/-- The description that a draft will hold after some lines outside equation
blocks. -/
def descriptionAfter (d : Draft) (lines : List Text) : List (List Run) :=
  d.description ++
    (Source.proseLines (d.current = .description) lines).map TagStyle.reference.runs

/-- Taking in a line changes nothing about the description to come. -/
theorem descriptionAfter_addOutside (d : Draft) (line : Text) (lines : List Text) :
    (d.addOutside line).descriptionAfter lines = d.descriptionAfter (line :: lines) := by
  have htaken := taken_addOutside d line
  generalize d.addOutside line = d' at htaken ⊢
  unfold descriptionAfter
  cases htaken with
  | title htitle h =>
    obtain ⟨hheading, hname, hline⟩ := Line.of_title?_eq_some h
    simp [Source.proseLines, hheading, hname, hline]
  | heading h => simp [Source.proseLines, h, enter]
  | @definition name h hname =>
    have : (if name = [] then Section.none else .definition name []) ≠ .description := by
      split <;> simp
    simp [Source.proseLines, h, hname, enter, this]
  | description h hname hline hcurrent =>
    simp [Source.proseLines, h, hname, hline, hcurrent]
  | body h hname hline hcurrent => simp [Source.proseLines, h, hname, hcurrent]
  | nothing htitle h hname hline =>
    have : ¬ (d.current = .description ∧ Line.isContent line = true) := by
      rintro ⟨hcurrent, hc⟩
      simp [hline hc] at hcurrent
    simp [Source.proseLines, h, hname, this]

/-! ### All lines -/

/-- **The equation of a draft holds the forests of the block lines**, in
order. -/
theorem equation_foldl_add (lines : List Text) (d : Draft) :
    (lines.foldl add d).equation =
      d.equation ++ (Source.linesAt true d.inBlock lines).map TagStyle.mark.forest := by
  induction lines generalizing d with
  | nil => simp [Source.linesAt]
  | cons line lines ih =>
    -- a delimiter changes sides and adds nothing
    rw [List.foldl_cons, ih, Source.linesAt, add]
    by_cases hdelimiter : Line.isBlockDelimiter line
    · rw [if_pos hdelimiter, if_pos hdelimiter]
    · rw [if_neg hdelimiter, if_neg hdelimiter]
      rcases hblock : d.inBlock with - | -
      · simp [equation_addOutside, inBlock_addOutside, hblock]
      · simp

theorem equation_ofLines (lines : List Text) :
    (ofLines lines).equation = (Source.linesAt true false lines).map TagStyle.mark.forest := by
  rw [ofLines, equation_foldl_add]
  rfl

/-- **The description of a draft holds the runs of the description lines**,
in order, whatever equation blocks stand between them. -/
theorem description_foldl_add (lines : List Text) (d : Draft) :
    (lines.foldl add d).description = d.descriptionAfter (Source.linesAt false d.inBlock lines) := by
  induction lines generalizing d with
  | nil => simp [Source.linesAt, descriptionAfter, Source.proseLines]
  | cons line lines ih =>
    rw [List.foldl_cons, ih, Source.linesAt, add]
    by_cases hdelimiter : Line.isBlockDelimiter line
    · rw [if_pos hdelimiter, if_pos hdelimiter]
      rfl
    · rw [if_neg hdelimiter, if_neg hdelimiter]
      rcases hblock : d.inBlock with - | -
      · simp [inBlock_addOutside, hblock, descriptionAfter_addOutside]
      · simp [descriptionAfter]

end Draft

end AnnotatedEquation
