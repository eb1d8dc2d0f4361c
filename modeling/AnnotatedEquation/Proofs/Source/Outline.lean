/-
AnnotatedEquation/Proofs/Source/Outline.lean

The sections of some lines, told without reading them one after the other:
the section of a line is given by the last heading before it.

* `Source.last?` is the last line of a kind, with its place;
* `Source.linesUnder` are the lines with something to say in the sections
  under certain headings;
* `Source.definedNames` and `Source.bodyLines` are the names of the
  definitions and the lines that each consists of.

Main statements: one more line goes to the section that is open
(`linesUnder_concat`), a definition goes on where no new heading takes its
name (`bodyLines_concat`), and a new heading begins it anew
(`bodyLines_concat_self`).
-/
import AnnotatedEquation.Proofs.Source.Lines
import Mathlib.Data.List.Induction

namespace AnnotatedEquation

variable {line t name : Text} {lines more : List Text}

/-! ### Kinds of lines -/

namespace Line

/-- The line gives a title: a hash, one blank or more, and then something
other than a hash. -/
def IsTitle (line : Text) : Prop :=
  ∃ blanks c rest, line = '#' :: (blanks ++ c :: rest) ∧ blanks ≠ [] ∧
    (∀ b ∈ blanks, Text.isBlank b) ∧ c ≠ '#'

/-- The line opens a section. -/
def isHeading (line : Text) : Bool :=
  isDescriptionHeading line || (definitionName? line).isSome

/-- The line is part of what a section says: it is not blank, does not begin
with a hash and is no heading. -/
def isProse (line : Text) : Bool := isContent line && !isDescriptionHeading line

theorem title?_eq_some_iff : title? line = some t ↔ IsTitle line ∧ t = Text.trim line.tail := by
  constructor
  · intro h
    unfold title? at h
    split at h
    · next b c rest =>
      obtain ⟨⟨hb, hc⟩, h⟩ := Option.ite_none_right_eq_some.1 h
      obtain rfl := Option.some.inj h
      exact ⟨⟨[b], c, rest, rfl, by simp, by simpa using hb, hc⟩, rfl⟩
    · cases h
  · rintro ⟨⟨blanks, c, rest, rfl, hne, hblanks, hc⟩, rfl⟩
    obtain ⟨b, blanks, rfl⟩ := List.exists_cons_of_ne_nil hne
    have hb := hblanks b List.mem_cons_self
    cases blanks with
    | nil => simp [title?, hb, hc]
    | cons b' blanks =>
      -- a second blank is something other than a hash
      have hb' : b' ≠ '#' := by
        rintro rfl
        exact absurd (hblanks '#' (by simp)) (by decide)
      simp [title?, hb, hb']

instance : DecidablePred IsTitle := fun line =>
  decidable_of_iff (title? line).isSome <| by
    simp only [Option.isSome_iff_exists, title?_eq_some_iff, exists_and_left, exists_eq, and_true]

theorem title?_eq (line : Text) :
    title? line = if IsTitle line then some (Text.trim line.tail) else none := by
  split
  · next h => exact title?_eq_some_iff.2 ⟨h, rfl⟩
  · next h =>
    rw [Option.eq_none_iff_forall_ne_some]
    intro t ht
    exact h (title?_eq_some_iff.1 ht).1

/-- A line that opens a definition opens no description, and says nothing. -/
theorem of_definitionName?_eq_some (h : definitionName? line = some name) :
    isDescriptionHeading line = false ∧ isContent line = false := by
  obtain ⟨rest, hrest, -⟩ := Option.map_eq_some_iff.1 h
  obtain rfl := Text.after?_eq_some_iff.1 hrest
  constructor
  · rw [isDescriptionHeading, decide_eq_false_iff_not]
    intro htrim
    have hstart : Text.trimStart ("## .".toList ++ rest) = "## .".toList ++ rest :=
      Text.trimStart_cons (by decide) _
    have hprefix := Text.isPrefix_trimEnd ("## .".toList ++ rest)
    rw [Text.trim, hstart] at htrim
    rw [htrim] at hprefix
    -- the two headings differ in their fourth character
    have hfour : "## .".toList <+: "## Description".toList :=
      List.prefix_of_prefix_length_le (List.prefix_append _ rest) hprefix (by decide)
    exact absurd hfour (by decide)
  · simp [isContent]

theorem definitionName?_of_isDescriptionHeading (h : isDescriptionHeading line) :
    definitionName? line = none := by
  rcases hname : definitionName? line with - | name
  · rfl
  · rw [(of_definitionName?_eq_some hname).1] at h
    cases h

theorem isProse_of_definitionName? (h : definitionName? line = some name) :
    isProse line = false := by
  rw [isProse, (of_definitionName?_eq_some h).2, Bool.false_and]

theorem isProse_of_isDescriptionHeading (h : isDescriptionHeading line) :
    isProse line = false := by
  rw [isProse, h, Bool.not_true, Bool.and_false]

theorem isProse_of_isContent (hline : isContent line) (h : isDescriptionHeading line = false) :
    isProse line := by
  rw [isProse, hline, h]
  rfl

theorem title?_eq_none_of_isContent (hline : isContent line) : title? line = none := by
  rcases ht : title? line with - | t
  · rfl
  · rw [(of_title?_eq_some ht).2.2] at hline
    cases hline

theorem title?_eq_none_of_isHeading (h : isHeading line) : title? line = none := by
  rcases ht : title? line with - | t
  · rfl
  · obtain ⟨hdescription, hname, -⟩ := of_title?_eq_some ht
    rw [isHeading, hdescription, hname] at h
    cases h

theorem isHeading_of_isDescriptionHeading (h : isDescriptionHeading line) : isHeading line := by
  rw [isHeading, h, Bool.true_or]

theorem isHeading_of_definitionName? (h : definitionName? line = some name) : isHeading line := by
  rw [isHeading, h, Option.isSome_some, Bool.or_true]

end Line

/-! ### Lines of a kind -/

namespace Source

/-- The last line of a kind, with its place. -/
def last? (kind : Text → Bool) (lines : List Text) : Option (Text × Nat) :=
  lines.zipIdx.reverse.find? fun l => kind l.1

/-- The lines with something to say that stand under a heading of a kind; the
heading of a place is the last one before it. -/
def linesUnder (prose : Text → Bool) (kind : Text × Nat → Bool) (lines : List Text) : List Text :=
  (lines.zipIdx.filter fun l =>
    prose l.1 && (last? Line.isHeading (lines.take l.2)).any kind).map Prod.fst

/-- The names on the headings of definitions, in order. -/
def headedNames (lines : List Text) : List Text :=
  (lines.filterMap Line.definitionName?).filter (· ≠ [])

/-- The names of the definitions, each at its first place. -/
def definedNames (lines : List Text) : List Text := (headedNames lines).eraseDups

/-- The last heading with a name. -/
def headingOf? (lines : List Text) (name : Text) : Option (Text × Nat) :=
  last? (fun line => Line.definitionName? line = some name) lines

/-- The lines of the definition of a name: those under the last heading with
the name. -/
def bodyLines (lines : List Text) (name : Text) : List Text :=
  linesUnder Line.isProse (fun heading => headingOf? lines name = some heading) lines

variable {kind kind' prose : Text → Bool} {wanted : Text × Nat → Bool} {l : Text × Nat}

@[simp] theorem last?_nil : last? kind [] = none := rfl

theorem last?_concat (lines : List Text) (line : Text) :
    last? kind (lines ++ [line])
      = if kind line then some (line, lines.length) else last? kind lines := by
  rw [last?, List.zipIdx_append, List.reverse_append]
  by_cases h : kind line <;> simp [h, last?]

theorem of_last?_eq_some (h : last? kind lines = some l) :
    kind l.1 ∧ l.1 ∈ lines ∧ l.2 < lines.length := by
  have hmem := List.mem_reverse.1 (List.mem_of_find?_eq_some h)
  have hplace := List.snd_lt_of_mem_zipIdx hmem
  refine ⟨List.find?_some (p := fun l : Text × Nat => kind l.1) h, ?_, by omega⟩
  exact List.fst_mem_of_mem_zipIdx hmem

/-- The last line of a kind is also the last one of a narrower kind, if it is
of this kind. -/
theorem last?_of_imp (himp : ∀ line, kind' line → kind line) (h : last? kind lines = some l)
    (hl : kind' l.1) : last? kind' lines = some l := by
  induction lines using List.reverseRecOn with
  | nil => cases h
  | append_singleton lines line ih =>
    rw [last?_concat] at h ⊢
    by_cases hline : kind line
    · rw [if_pos hline] at h
      obtain rfl := Option.some.inj h
      rw [if_pos hl]
    · rw [if_neg hline] at h
      rw [if_neg fun h' => hline (himp line h')]
      exact ih h

/-! ### One line more -/

/-- One more line goes to the section that is open. -/
theorem linesUnder_concat (lines : List Text) (line : Text) :
    linesUnder prose wanted (lines ++ [line]) = linesUnder prose wanted lines ++
      if prose line && (last? Line.isHeading lines).any wanted then [line] else [] := by
  have hold : lines.zipIdx.filter (fun l =>
        prose l.1 && (last? Line.isHeading ((lines ++ [line]).take l.2)).any wanted) =
      lines.zipIdx.filter fun l =>
        prose l.1 && (last? Line.isHeading (lines.take l.2)).any wanted := by
    apply List.filter_congr
    intro l hl
    have hplace := List.snd_lt_of_mem_zipIdx hl
    rw [List.take_append_of_le_length (by omega)]
  rw [linesUnder, List.zipIdx_append, List.filter_append, List.map_append, hold]
  congr 1
  rw [List.zipIdx_singleton, List.filter_singleton, Nat.zero_add, List.take_left]
  split
  · next h => rw [h, cond_true, List.map_singleton]
  · next h => rw [eq_false_of_ne_true h, cond_false, List.map_nil]

/-- No line stands under a heading that is still to come. -/
theorem linesUnder_eq_nil (h : ∀ l : Text × Nat, l.2 < lines.length → wanted l = false) :
    linesUnder prose wanted lines = [] := by
  rw [linesUnder, List.map_eq_nil_iff, List.filter_eq_nil_iff]
  intro l hl
  have hplace := List.snd_lt_of_mem_zipIdx hl
  rcases hlast : last? Line.isHeading (lines.take l.2) with - | heading
  · simp
  · have := (of_last?_eq_some hlast).2.2
    rw [List.length_take] at this
    rw [Option.any_some, h heading (by omega), Bool.and_false]
    exact Bool.false_ne_true

theorem headedNames_concat (lines : List Text) (line : Text) :
    headedNames (lines ++ [line]) =
      headedNames lines ++ ((Line.definitionName? line).toList.filter (· ≠ [])) := by
  rw [headedNames, List.filterMap_append, List.filter_append]
  rfl

theorem headedNames_concat_of_eq_none (h : Line.definitionName? line = none) :
    headedNames (lines ++ [line]) = headedNames lines := by
  rw [headedNames_concat, h, Option.toList_none, List.filter_nil, List.append_nil]

theorem ne_nil_of_mem_definedNames (h : name ∈ definedNames lines) : name ≠ [] := by
  have := (List.mem_filter.1 (List.mem_eraseDups.1 h)).2
  simpa using this

theorem mem_definedNames (h : Line.definitionName? line = some name) (hmem : line ∈ lines)
    (hne : name ≠ []) : name ∈ definedNames lines := by
  rw [definedNames, List.mem_eraseDups, headedNames, List.mem_filter]
  exact ⟨List.mem_filterMap.2 ⟨line, hmem, h⟩, by simpa using hne⟩

theorem headingOf?_concat (h : Line.definitionName? line ≠ some name) :
    headingOf? (lines ++ [line]) name = headingOf? lines name := by
  rw [headingOf?, last?_concat, if_neg (by simpa using h), headingOf?]

/-- The open section is that of a name if its heading is the last one with the
name. -/
theorem any_headingOf?_eq (lines : List Text) (name : Text) :
    (last? Line.isHeading lines).any (headingOf? lines name = some ·) =
      (last? Line.isHeading lines).any (Line.definitionName? ·.1 = some name) := by
  rcases hlast : last? Line.isHeading lines with - | l
  · rfl
  · rw [Option.any_some, Option.any_some, decide_eq_decide]
    constructor
    · intro h
      exact of_decide_eq_true (of_last?_eq_some h).1
    · intro h
      refine last?_of_imp ?_ hlast (decide_eq_true h)
      intro line hline
      rw [Line.isHeading, of_decide_eq_true hline, Option.isSome_some, Bool.or_true]

/-- A definition goes on with the lines that follow while it is open. -/
theorem bodyLines_concat (h : Line.definitionName? line ≠ some name) :
    bodyLines (lines ++ [line]) name = bodyLines lines name ++
      if Line.isProse line &&
        (last? Line.isHeading lines).any (Line.definitionName? ·.1 = some name)
      then [line] else [] := by
  rw [bodyLines, headingOf?_concat h, linesUnder_concat, any_headingOf?_eq, bodyLines]

/-- A heading begins its definition anew. -/
theorem bodyLines_concat_self (h : Line.definitionName? line = some name) :
    bodyLines (lines ++ [line]) name = [] := by
  have hlast : headingOf? (lines ++ [line]) name = some (line, lines.length) := by
    rw [headingOf?, last?_concat, if_pos (by simpa using h)]
  have hprose : Line.isProse line = false := by
    rw [Line.isProse, (Line.of_definitionName?_eq_some h).2, Bool.false_and]
  rw [bodyLines, hlast, linesUnder_concat, hprose, Bool.false_and, if_neg Bool.false_ne_true,
    List.append_nil]
  apply linesUnder_eq_nil
  rintro ⟨line', place⟩ hplace
  have : place < lines.length := hplace
  simp
  omega

/-! ### More lines -/

theorem linesUnder_prefix_append (lines more : List Text) :
    linesUnder prose wanted lines <+: linesUnder prose wanted (lines ++ more) := by
  induction more using List.reverseRecOn with
  | nil => rw [List.append_nil]
  | append_singleton more line ih =>
    rw [← List.append_assoc, linesUnder_concat]
    exact ih.trans (List.prefix_append _ _)

/-- A definition goes on as long as no other heading has its name. -/
theorem bodyLines_prefix_append (lines : List Text) {more : List Text}
    (h : ∀ line ∈ more, Line.definitionName? line ≠ some name) :
    bodyLines lines name <+: bodyLines (lines ++ more) name := by
  induction more using List.reverseRecOn with
  | nil => rw [List.append_nil]
  | append_singleton more line ih =>
    have hline : Line.definitionName? line ≠ some name := h line (by simp)
    rw [← List.append_assoc, bodyLines_concat hline]
    exact (ih fun l hl => h l (by simp [hl])).trans (List.prefix_append _ _)

theorem definedNames_prefix_append (lines more : List Text) :
    definedNames lines <+: definedNames (lines ++ more) := by
  rw [definedNames, definedNames, headedNames, headedNames, List.filterMap_append,
    List.filter_append, List.eraseDups_append]
  exact List.prefix_append _ _

end Source

end AnnotatedEquation
