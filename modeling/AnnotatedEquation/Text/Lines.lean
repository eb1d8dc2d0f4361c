/-
AnnotatedEquation/Text/Lines.lean

The lines of a text.  A line ends at any of the line boundaries of Unicode
(carriage return followed by line feed counting as one) or at the end of the
text; a boundary at the very end opens no further line.
-/
import AnnotatedEquation.Text.Basic
import AnnotatedEquation.Text.CodeRanges

namespace AnnotatedEquation.Text

/-- The characters that end a line. -/
def breakRanges : CodeRanges := [(10, 13), (28, 30), (133, 133), (8232, 8233)]

/-- A character that ends a line. -/
def isBreak (c : Char) : Bool := breakRanges.has c

/-- Puts a character at the front of the first line, opening one if there is
none. -/
def consLine (c : Char) : List Text → List Text
  | [] => [[c]]
  | line :: rest => (c :: line) :: rest

/-- The lines of a text, without what ends them. -/
def lines : Text → List Text
  | [] => []
  | '\r' :: '\n' :: s => [] :: lines s
  | c :: s => if isBreak c then [] :: lines s else consLine c (lines s)

end AnnotatedEquation.Text
