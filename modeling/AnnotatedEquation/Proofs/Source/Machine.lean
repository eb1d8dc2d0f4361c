/-
AnnotatedEquation/Proofs/Source/Machine.lean

The reading of a source as the run of a machine with five modes.

* a machine seeks the title, stands outside all sections, or is in an equation
  block, in the description or in a definition.  The delimiter of a block sets
  the mode aside and takes it up again behind the block;
* the lines are scanned as they come (`Mark.scanFrom`, `Reference.scanFrom`),
  and the machine keeps what is written for them;
* a definition is put into the table when the next one begins or the source
  ends.  The heading of the description only leaves it aside.

A draft keeps the same in another form: it needs no mode to resume, since no
line of a block opens a section, and it ends a definition at the heading of
the description.  `Machine.Holds` says when a machine and a draft hold the
same.

Main statements: a line keeps a machine and a draft together
(`Machine.Holds.feed`), and so a source says what the machine has at the end
of its lines (`Machine.finish_run`).
-/
import AnnotatedEquation.Proofs.Source.Marking
import AnnotatedEquation.Proofs.Source.Outline
import AnnotatedEquation.Proofs.Source.Scanning

namespace AnnotatedEquation

open Fragment (termsAll writeAll)

/-! ### Kinds of lines -/

namespace Line

variable {line : Text}

theorem not_isTitle (h : title? line = none) : ¬ IsTitle line := by
  intro ht
  rw [title?_eq, if_pos ht] at h
  cases h

theorem isContent_iff : isContent line ↔ ¬ (Text.trim line = [] ∨ line.head? = some '#') := by
  simp [isContent]

end Line

/-! ### Machines -/

/-- What a machine reads the next line as. -/
inductive Machine.Mode where
  | titleSeek
  | neutral
  | equation
  | description
  | definition
  deriving DecidableEq, Repr

/-- What a machine keeps between two lines. -/
structure Machine where
  mode : Machine.Mode := .titleSeek
  resumeMode : Machine.Mode := .titleSeek
  title : Option Text := none
  equationLines : List Text := []
  descriptionLines : List Text := []
  definitions : Entries Text := []
  definitionName : Option Text := none
  definitionLines : List Text := []
  termOrder : List Text := []
  descriptionTerms : List Text := []

namespace Machine

/-- Puts the definition that is open into the table. -/
def flush (m : Machine) : Machine :=
  { m with
    definitions :=
      match m.definitionName with
      | none => m.definitions
      | some name => m.definitions.put name (Text.trim (Text.joinWith ['\n'] m.definitionLines))
    definitionName := none
    definitionLines := [] }

/-- Enters an equation block, or leaves it for the mode before it. -/
def crossDelimiter (m : Machine) : Machine :=
  if m.mode = .equation then { m with mode := m.resumeMode }
  else { m with resumeMode := m.mode, mode := .equation }

/-- Scans a line of an equation block. -/
def scanEquation (m : Machine) (line : Text) : Machine :=
  let (written, order) := Mark.scanFrom line 0 m.termOrder
  { m with equationLines := m.equationLines ++ [written], termOrder := order }

/-- Takes the title of a line. -/
def takeTitle (m : Machine) (line : Text) : Machine :=
  { m with
    title := some (Text.trim line.tail)
    mode := if m.mode = .titleSeek then .neutral else m.mode }

/-- Begins the definition of a name; a heading without one begins none. -/
def beginDefinition (m : Machine) (name : Text) : Machine :=
  { m.flush with
    definitionName := if name = [] then none else some name
    mode := if name = [] then .neutral else .definition }

/-- Takes in a line of text. -/
def takeText (m : Machine) (line : Text) : Machine :=
  if m.mode = .description then
    let (written, terms) := Reference.scanFrom line 0
    { m with
      descriptionLines := m.descriptionLines ++ [written]
      descriptionTerms := m.descriptionTerms ++ terms }
  else if m.definitionName.isSome then
    { m with definitionLines := m.definitionLines ++ [line] }
  else m

/-- Takes in a line outside equation blocks. -/
def feedOutside (m : Machine) (line : Text) : Machine :=
  if m.title = none ∧ Line.IsTitle line then m.takeTitle line
  else if Text.trim line = "## Description".toList then { m with mode := .description }
  else
    match Text.after? "## .".toList line with
    | some rest => m.beginDefinition (Text.trim rest)
    | none => if Text.trim line = [] ∨ line.head? = some '#' then m else m.takeText line

/-- Takes in a line. -/
def feed (m : Machine) (line : Text) : Machine :=
  if Text.trim line = ['$', '$'] then m.crossDelimiter
  else if m.mode = .equation then m.scanEquation line
  else m.feedOutside line

/-- What a machine has at the end. -/
def finish (m : Machine) : Content :=
  let defined := m.flush.definitions.keys
  { title := m.title
    equation := Text.trim (Text.joinWith ['\n'] m.equationLines)
    description := Text.trim (Text.joinWith [' '] m.descriptionLines)
    definitions := m.flush.definitions
    termOrder := m.termOrder
    errors := (Problem.errors m.termOrder m.descriptionTerms defined).map Problem.message
    warnings := (Problem.warnings m.termOrder m.descriptionTerms defined).map Problem.message }

/-! ### Machines and drafts -/

/-- The mode outside equation blocks. -/
def outerMode (m : Machine) : Mode := if m.mode = .equation then m.resumeMode else m.mode

/-- The section that a mode stands for, if `name?` is the definition that is
open and `body` are its lines. -/
inductive Stands (name? : Option Text) (body : List Text) : Mode → Section → Prop
  | seeking (h : name? = none) : Stands name? body .titleSeek .none
  | neutral (h : name? = none) : Stands name? body .neutral .none
  | description : Stands name? body .description .description
  | definition {name : Text} (h : name? = some name) :
      Stands name? body .definition (.definition name body)

/-- A machine and a draft hold the same. -/
structure Holds (m : Machine) (d : Draft) : Prop where
  block : m.mode = .equation ↔ d.inBlock
  title : m.title = d.title
  equation : m.equationLines = d.equation.map (writeAll EquationSpan.write)
  order : m.termOrder = d.termOrder
  description : m.descriptionLines = d.description.map TagStyle.proseSpan.written
  referred : m.descriptionTerms = d.referredTerms
  definitions : m.flush.definitions = d.allDefinitions
  current : Stands m.definitionName m.definitionLines m.outerMode d.current

variable {m : Machine} {d : Draft} {line name : Text} {name? : Option Text} {body : List Text}
  {mode : Mode} {current : Section}

theorem Stands.ne_equation (h : Stands name? body mode current) : mode ≠ .equation := by
  cases h <;> decide

theorem Stands.eq_description_iff (h : Stands name? body mode current) :
    mode = .description ↔ current = .description := by
  cases h <;> simp

theorem Stands.of_none (h : Stands name? body mode .none) :
    mode ≠ .description ∧ name? = none := by
  cases h with
  | seeking h => exact ⟨by decide, h⟩
  | neutral h => exact ⟨by decide, h⟩

theorem Stands.of_definition {lines : List Text}
    (h : Stands name? body mode (.definition name lines)) :
    (mode = .definition ∧ name? = some name) ∧ body = lines := by
  cases h with
  | definition h => exact ⟨⟨rfl, h⟩, rfl⟩

/-- The title ends the search for it. -/
theorem Stands.takeTitle (h : Stands name? body mode current) :
    Stands name? body (if mode = .titleSeek then .neutral else mode) current := by
  cases h with
  | seeking h => exact .neutral h
  | neutral h => exact .neutral h
  | description => exact .description
  | definition h => exact .definition h

/-- Outside equation blocks the mode itself stands for the section. -/
theorem outerMode_of_ne (h : m.mode ≠ .equation) : m.outerMode = m.mode := if_neg h

/-! ### One line more -/

/-- A line of text is taken in as such. -/
theorem feedOutside_of_isContent (hheading : Line.isDescriptionHeading line = false)
    (hname : Line.definitionName? line = none) (hline : Line.isContent line) :
    m.feedOutside line = m.takeText line := by
  have htitle := Line.not_isTitle (Line.title?_eq_none_of_isContent hline)
  rw [feedOutside, if_neg fun ht => htitle ht.2, if_neg (of_decide_eq_false hheading),
    Option.map_eq_none_iff.1 hname]
  exact if_neg (Line.isContent_iff.1 hline)

namespace Holds

/-- Outside equation blocks the mode itself stands for the section. -/
theorem stands (h : m.Holds d) (hmode : m.mode ≠ .equation) :
    Stands m.definitionName m.definitionLines m.mode d.current :=
  outerMode_of_ne hmode ▸ h.current

/-- A delimiter sets the mode aside and takes it up again. -/
theorem crossDelimiter (h : m.Holds d) :
    m.crossDelimiter.Holds { d with inBlock := !d.inBlock } := by
  rw [Machine.crossDelimiter]
  split
  · next hmode =>
    have hcurrent : Stands m.definitionName m.definitionLines m.resumeMode d.current := by
      rw [← show m.outerMode = m.resumeMode from if_pos hmode]
      exact h.current
    refine ⟨?_, h.title, h.equation, h.order, h.description, h.referred, h.definitions, ?_⟩
    · show m.resumeMode = .equation ↔ (!d.inBlock) = true
      simp [hcurrent.ne_equation, h.block.1 hmode]
    · rwa [outerMode_of_ne hcurrent.ne_equation]
  · next hmode =>
    refine ⟨?_, h.title, h.equation, h.order, h.description, h.referred, h.definitions,
      h.stands hmode⟩
    show Mode.equation = .equation ↔ (!d.inBlock) = true
    simpa using fun hd => hmode (h.block.2 hd)

/-- A line of a block is scanned. -/
theorem scanEquation (h : m.Holds d) (line : Text) :
    (m.scanEquation line).Holds
      { d with equation := d.equation ++ [TagStyle.mark.forest line] } := by
  have hscan := Mark.scanFrom_eq line 0 m.termOrder
  rw [List.drop_zero] at hscan
  rw [Machine.scanEquation, hscan]
  refine ⟨h.block, h.title, ?_, ?_, h.description, h.referred, h.definitions, h.current⟩
  · show m.equationLines ++ [_] = (d.equation ++ [_]).map _
    rw [h.equation, List.map_append]
    rfl
  · show (termsAll _).foldl Mark.register m.termOrder =
      List.eraseDups ((d.equation ++ [_]).flatMap termsAll)
    rw [h.order, Draft.termOrder, Mark.foldl_register, List.flatMap_append,
      List.flatMap_singleton]

/-- A title opens no section. -/
theorem takeTitle (h : m.Holds d) (hmode : m.mode ≠ .equation) (line : Text) :
    (m.takeTitle line).Holds { d with title := some (Text.trim line.tail) } := by
  have hcurrent := (h.stands hmode).takeTitle
  have hmode' : (m.takeTitle line).mode ≠ .equation := hcurrent.ne_equation
  refine ⟨?_, rfl, h.equation, h.order, h.description, h.referred, h.definitions, ?_⟩
  · rw [← h.block]
    exact iff_of_false hmode' hmode
  · rwa [outerMode_of_ne hmode']

/-- The heading of the description leaves a definition open. -/
theorem openDescription (h : m.Holds d) (hmode : m.mode ≠ .equation) :
    Holds { m with mode := .description } (d.enter .description) := by
  refine ⟨?_, h.title, h.equation, h.order, h.description, h.referred, h.definitions, .description⟩
  show Mode.description = .equation ↔ d.inBlock
  rw [← h.block]
  exact iff_of_false (by decide) hmode

/-- The heading of a definition puts the one before it into the table. -/
theorem beginDefinition (h : m.Holds d) (hmode : m.mode ≠ .equation) (name : Text) :
    (m.beginDefinition name).Holds
      (d.enter (if name = [] then .none else .definition name [])) := by
  have hstands : Stands (m.beginDefinition name).definitionName [] (m.beginDefinition name).mode
      (if name = [] then .none else .definition name []) := by
    simp only [Machine.beginDefinition]
    split
    · exact .neutral rfl
    · exact .definition rfl
  have hmode' := hstands.ne_equation
  refine ⟨?_, h.title, h.equation, h.order, h.description, h.referred, ?_, ?_⟩
  · show _ ↔ d.inBlock
    rw [← h.block]
    exact iff_of_false hmode' hmode
  · by_cases hname : name = []
    · simp only [Machine.beginDefinition, if_pos hname]
      exact h.definitions
    · simp only [Machine.beginDefinition, if_neg hname]
      show m.flush.definitions.put name _ = d.allDefinitions.put name _
      rw [h.definitions]
      rfl
  · rwa [outerMode_of_ne hmode']

/-- A line of the description is scanned. -/
theorem takeText_description (h : m.Holds d) (hmode : m.mode ≠ .equation) (line : Text)
    (hcurrent : d.current = .description) :
    (m.takeText line).Holds
      { d with description := d.description ++ [TagStyle.reference.runs line] } := by
  have hdescription : m.mode = .description := (h.stands hmode).eq_description_iff.2 hcurrent
  rw [takeText, if_pos hdescription, Reference.scanFrom_zero]
  refine ⟨h.block, h.title, h.equation, h.order, ?_, ?_, h.definitions, h.current⟩
  · show m.descriptionLines ++ [_] = (d.description ++ [_]).map _
    rw [h.description, List.map_append]
    rfl
  · show m.descriptionTerms ++ _ = (d.description ++ [_]).flatMap _
    rw [h.referred, List.flatMap_append, List.flatMap_singleton]
    rfl

/-- A line of a definition is kept as it is. -/
theorem takeText_definition (h : m.Holds d) (hmode : m.mode ≠ .equation) (line : Text)
    (hcurrent : d.current = .definition name body) :
    (m.takeText line).Holds { d with current := .definition name (body ++ [line]) } := by
  have hstands := h.stands hmode
  rw [hcurrent] at hstands
  obtain ⟨⟨hdefinition, hname⟩, rfl⟩ := hstands.of_definition
  have hall := h.definitions
  simp only [flush, hname, Draft.allDefinitions, hcurrent] at hall
  have htake : m.takeText line = { m with definitionLines := m.definitionLines ++ [line] } := by
    rw [takeText, if_neg (by simp [hdefinition]), hname]
    rfl
  rw [htake]
  refine ⟨h.block, h.title, h.equation, h.order, h.description, h.referred, ?_, ?_⟩
  · -- the table takes the new lines in place of those before
    simp only [flush, hname, Draft.allDefinitions]
    rw [← Entries.put_put m.definitions, hall, Entries.put_put]
  · have houter : m.outerMode = .definition := (outerMode_of_ne hmode).trans hdefinition
    show Stands m.definitionName _ m.outerMode _
    rw [houter]
    exact .definition hname

/-- A line outside all sections goes nowhere. -/
theorem takeText_none (h : m.Holds d) (hmode : m.mode ≠ .equation) (line : Text)
    (hcurrent : d.current = .none) : m.takeText line = m := by
  have hstands := h.stands hmode
  rw [hcurrent] at hstands
  obtain ⟨hdescription, hname⟩ := hstands.of_none
  rw [takeText, if_neg hdescription, hname]
  rfl

/-- **A line outside the blocks keeps a machine and a draft together.** -/
theorem feedOutside (h : m.Holds d) (hmode : m.mode ≠ .equation) (line : Text) :
    (m.feedOutside line).Holds (d.addOutside line) := by
  have htaken := Draft.taken_addOutside d line
  generalize d.addOutside line = d' at htaken ⊢
  rw [Machine.feedOutside]
  cases htaken with
  | title htitle ht =>
    obtain ⟨htitleLine, rfl⟩ := Line.title?_eq_some_iff.1 ht
    rw [if_pos ⟨h.title.trans htitle, htitleLine⟩]
    exact h.takeTitle hmode line
  | heading hheading =>
    have hnone := Line.title?_eq_none_of_isHeading
      (Line.isHeading_of_isDescriptionHeading hheading)
    rw [if_neg fun ht => Line.not_isTitle hnone ht.2, if_pos (of_decide_eq_true hheading)]
    exact h.openDescription hmode
  | definition hheading hname =>
    have hnone := Line.title?_eq_none_of_isHeading (Line.isHeading_of_definitionName? hname)
    obtain ⟨rest, hrest, rfl⟩ := Option.map_eq_some_iff.1 hname
    rw [if_neg fun ht => Line.not_isTitle hnone ht.2, if_neg (of_decide_eq_false hheading), hrest]
    exact h.beginDefinition hmode _
  | description hheading hname hline hcurrent =>
    rw [← Machine.feedOutside, feedOutside_of_isContent hheading hname hline]
    exact h.takeText_description hmode line hcurrent
  | body hheading hname hline hcurrent =>
    rw [← Machine.feedOutside, feedOutside_of_isContent hheading hname hline]
    exact h.takeText_definition hmode line hcurrent
  | nothing htitle hheading hname hline =>
    rw [if_neg fun ht => Line.not_isTitle (htitle (h.title.symm.trans ht.1)) ht.2,
      if_neg (of_decide_eq_false hheading), Option.map_eq_none_iff.1 hname]
    dsimp only
    split
    · exact h
    · next hcontent =>
      rwa [h.takeText_none hmode line (hline (Line.isContent_iff.2 hcontent))]

/-- **A line keeps a machine and a draft together.** -/
theorem feed (h : m.Holds d) (line : Text) : (m.feed line).Holds (d.add line) := by
  rw [Machine.feed, Draft.add]
  by_cases hdelimiter : Line.isBlockDelimiter line
  · rw [if_pos (of_decide_eq_true hdelimiter), if_pos hdelimiter]
    exact h.crossDelimiter
  · rw [if_neg fun htrim => hdelimiter (decide_eq_true htrim), if_neg hdelimiter]
    by_cases hmode : m.mode = .equation
    · rw [if_pos hmode, if_pos (h.block.1 hmode)]
      exact h.scanEquation line
    · rw [if_neg hmode, if_neg fun hblock => hmode (h.block.2 hblock)]
      exact h.feedOutside hmode line

end Holds

/-! ### Runs -/

/-- The machine that has taken in some lines. -/
def run (lines : List Text) : Machine := lines.foldl feed {}

theorem holds_run (lines : List Text) : (run lines).Holds (Draft.ofLines lines) := by
  induction lines using List.reverseRecOn with
  | nil => exact ⟨by decide, rfl, rfl, rfl, rfl, rfl, rfl, .seeking rfl⟩
  | append_singleton lines line ih =>
    rw [run, Draft.ofLines, List.foldl_concat, List.foldl_concat]
    exact ih.feed line

theorem Holds.finish (h : m.Holds d) : m.finish = d.content := by
  simp only [Machine.finish, Draft.content, h.title, h.equation, h.description, h.definitions,
    h.order, h.referred]

/-- **A source says what the machine has at the end of its lines.** -/
theorem finish_run (source : Text) : (run (Text.lines source)).finish = Content.read source :=
  (holds_run _).finish

end Machine

end AnnotatedEquation
