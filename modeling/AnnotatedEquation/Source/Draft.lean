/-
AnnotatedEquation/Source/Draft.lean

Reading a source, line by line, in one pass.

    # Title
    $$
    \mark[term]{latex} = ...
    $$
    ## Description
    Prose that refers to a [thing]{.term}.
    ## .term
    What the term means, with $inline$ math.

* a line that holds `$$` and blanks alone opens or closes an equation block,
  wherever it stands, and the section around a block goes on behind it;
* outside blocks, the first title line gives the title, headings open
  sections, and any other line that is neither blank nor begins with `#`
  belongs to the open section.

`Draft.add` takes in one line, `Draft.content` gives what the lines taken in
say, and `Content.read` reads a whole text.
-/
import AnnotatedEquation.Markup.Mark
import AnnotatedEquation.Markup.Reference
import AnnotatedEquation.Markup.EquationSpan
import AnnotatedEquation.Markup.ProseSpan
import AnnotatedEquation.Source.Content
import AnnotatedEquation.Source.Problem
import AnnotatedEquation.Text.Blank
import AnnotatedEquation.Text.Lines

namespace AnnotatedEquation

/-! ### Kinds of lines -/

namespace Line

/-- The line opens or closes an equation block. -/
def isBlockDelimiter (line : Text) : Bool := Text.trim line = ['$', '$']

/-- The line opens the description. -/
def isDescriptionHeading (line : Text) : Bool :=
  Text.trim line = "## Description".toList

/-- The trimmed name on a line that opens a definition. -/
def definitionName? (line : Text) : Option Text :=
  (Text.after? "## .".toList line).map Text.trim

/-- The title on a line that gives one: a `#`, a blank, and then anything
but another `#`. -/
def title? : Text → Option Text
  | '#' :: b :: c :: rest =>
    if Text.isBlank b ∧ c ≠ '#' then some (Text.trim (b :: c :: rest)) else none
  | _ => none

/-- The line says something: it is not blank and does not begin with `#`. -/
def isContent (line : Text) : Bool := Text.trim line ≠ [] && line.head? ≠ some '#'

end Line

/-! ### Drafts -/

/-- The section that content lines belong to. -/
inductive Section where
  | none
  | description
  | definition (name : Text) (body : List Text)
  deriving DecidableEq, Repr

/-- What the lines read so far say.  Lines are kept in order. -/
structure Draft where
  inBlock : Bool := false
  title : Option Text := none
  equation : List (List Fragment) := []
  description : List (List Run) := []
  definitions : Entries Text := []
  current : Section := .none

namespace Draft

/-- The definitions with the one that is still open. -/
def allDefinitions (d : Draft) : Entries Text :=
  match d.current with
  | .definition name body => d.definitions.put name (Text.trim (Text.joinWith ['\n'] body))
  | _ => d.definitions

/-- Ends the open section and opens another. -/
def enter (d : Draft) (next : Section) : Draft :=
  { d with definitions := d.allDefinitions, current := next }

/-- Takes in a line outside equation blocks. -/
def addOutside (d : Draft) (line : Text) : Draft :=
  match d.title, Line.title? line with
  | .none, some title => { d with title := some title }
  | _, _ =>
    if Line.isDescriptionHeading line then d.enter .description
    else
      match Line.definitionName? line with
      | some [] => d.enter .none
      | some name => d.enter (.definition name [])
      | .none =>
        if Line.isContent line then
          match d.current with
          | .none => d
          | .description =>
            { d with description := d.description ++ [TagStyle.reference.runs line] }
          | .definition name body => { d with current := .definition name (body ++ [line]) }
        else d

/-- Takes in a line. -/
def add (d : Draft) (line : Text) : Draft :=
  if Line.isBlockDelimiter line then { d with inBlock := !d.inBlock }
  else if d.inBlock then { d with equation := d.equation ++ [TagStyle.mark.forest line] }
  else d.addOutside line

/-- The marked terms, each at its first place. -/
def termOrder (d : Draft) : List Text := (d.equation.flatMap Fragment.termsAll).eraseDups

/-- The terms that the description refers to, with repetitions. -/
def referredTerms (d : Draft) : List Text :=
  d.description.flatMap fun runs => runs.filterMap Run.term?

/-- What the lines taken in so far say. -/
def content (d : Draft) : Content :=
  let defined := d.allDefinitions.keys
  { title := d.title
    equation := Text.trim (Text.joinWith ['\n']
      (d.equation.map (Fragment.writeAll EquationSpan.write)))
    description := Text.trim (Text.joinWith [' '] (d.description.map TagStyle.proseSpan.written))
    definitions := d.allDefinitions
    termOrder := d.termOrder
    errors := (Problem.errors d.termOrder d.referredTerms defined).map Problem.message
    warnings := (Problem.warnings d.termOrder d.referredTerms defined).map Problem.message }

/-- What is left after taking in some lines. -/
def ofLines (lines : List Text) : Draft := lines.foldl add {}

end Draft

/-- The content of a source text. -/
def Content.read (source : Text) : Content := (Draft.ofLines (Text.lines source)).content

end AnnotatedEquation
