/-
AnnotatedEquation/Failure.lean

Why an answer is refused, told by cause, and what is said about it.

The last three causes lie in what a stage cannot digest; nothing is said about
them, and `Failure.message?` gives nothing.
-/
import AnnotatedEquation.Json.Basic

namespace AnnotatedEquation

/-- A cause of failure. -/
inductive Failure where
  /-- A tagged term is not in the term order. -/
  | unknownTerm (term : Text)
  /-- The palette has no color for the place of a term in the term order. -/
  | paletteTooShort (term : Text) (index : Nat) (palette : Text) (size : Nat)
  | unknownFormat (name : Text)
  | unknownPalette (key : Text)
  /-- The listed colors of a palette are none. -/
  | badColors (palette : Text) (colors : List Json)
  /-- A palette file holds no JSON text. -/
  | notJson (path : Text)
  /-- A palette file holds no object with a list of colors. -/
  | noColorList (path : Text)
  /-- A formula holds a digit that can stand in no number. -/
  | oddDigit (digit : Char)
  /-- The name of a color variable is no replacement template. -/
  | badTemplate (template : Text)
  /-- What a file holds cannot be decoded: it is no UTF-8 text, or a number in
  it has too many digits. -/
  | undecodable (path : Text)
  deriving Repr

namespace Failure

/-- What is said about a failure.  The words that a JSON parser adds behind
`not valid JSON`, in parentheses, are left out: the reader does not tell where
and why a text goes wrong. -/
def message? : Failure → Option Text
  | unknownTerm term => some ("Term \"".toList ++ term ++ "\" not found in term order".toList)
  | paletteTooShort term index palette size =>
    some ("No color defined for term \"".toList ++ term ++ "\" at index ".toList
      ++ Text.ofNat index ++ " in scheme \"".toList ++ palette ++ "\" (".toList
      ++ Text.ofNat size ++ " colors available)".toList)
  | unknownFormat name => some ("Unknown export format: ".toList ++ name)
  | unknownPalette key => some ("Unknown color scheme: ".toList ++ key)
  | badColors palette colors =>
    some ("Scheme \"".toList ++ palette ++ "\" has invalid hex colors: ".toList
      ++ (Json.array colors).display)
  | notJson path => some (path ++ ": not valid JSON".toList)
  | noColorList path => some (path ++ ": expected an object with a \"colors\" list".toList)
  | oddDigit _ | badTemplate _ | undecodable _ => none

end Failure

end AnnotatedEquation
