/-
AnnotatedEquation/Text/Numeral.lean

Whole numbers written in the decimal digits of any scripts.  A sign may stand
before the digits, single underscores between them, and white space around
the whole.
-/
import AnnotatedEquation.Text.Blank
import AnnotatedEquation.Text.Digit

namespace AnnotatedEquation.Text

/-- The greatest number of digits that are read as a number. -/
def maxDigits : Nat := 4300

/-- The number that digits write, with single underscores between some. -/
def natural? (s : Text) : Option Nat :=
  let groups := s.splitOn '_'
  if [] ∉ groups ∧ groups.flatten.length ≤ maxDigits then
    groups.flatten.foldlM (fun n c => (decimalValue? c).map (10 * n + ·)) 0
  else none

/-- The text without the white space at its two ends. -/
def trimWhite (s : Text) : Text :=
  ((s.dropWhile isWhite).reverse.dropWhile isWhite).reverse

/-- The whole number that a text writes. -/
def integer? (s : Text) : Option Int :=
  match trimWhite s with
  | '-' :: digits => (natural? digits).map fun n => -(n : Int)
  | '+' :: digits => (natural? digits).map fun n => (n : Int)
  | digits => (natural? digits).map fun n => (n : Int)

end AnnotatedEquation.Text
