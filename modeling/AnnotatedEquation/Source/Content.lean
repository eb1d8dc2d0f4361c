/-
AnnotatedEquation/Source/Content.lean

What a source says once it has been read: the title, the equation and the
description in neutral markup, the definitions, the order of the terms, and
what the cross-check found.
-/
import AnnotatedEquation.Entries

namespace AnnotatedEquation

/-- The content of a source. -/
structure Content where
  title : Option Text := none
  equation : Text := []
  description : Text := []
  definitions : Entries Text := []
  termOrder : List Text := []
  errors : List Text := []
  warnings : List Text := []
  deriving DecidableEq, Repr

namespace Content

/-- No error was found. -/
def isValid (c : Content) : Bool := c.errors.isEmpty

/-- The definitions of terms that the equation marks, in order. -/
def keptDefinitions (c : Content) : Entries Text :=
  c.definitions.filter (·.1 ∈ c.termOrder)

/-- The terms of the definitions that documents leave out: those that the
equation does not mark. -/
def skippedTerms (c : Content) : List Text :=
  Entries.keys (c.definitions.filter (·.1 ∉ c.termOrder))

/-- The title of a document: that of the source, unless it has none. -/
def documentTitle (c : Content) : Text :=
  match c.title with
  | none | some [] => "Untitled".toList
  | some title => title

end Content

end AnnotatedEquation
