/-
AnnotatedEquation/Text/Blank.lean

Blank characters of Unicode, the information separators U+001C to U+001F
among them, and the trimming of a text at both ends.
-/
import AnnotatedEquation.Text.Basic
import AnnotatedEquation.Text.CodeRanges

namespace AnnotatedEquation.Text

/-- The blank characters: white space and the information separators. -/
def blankRanges : CodeRanges :=
  [(9, 13), (28, 32), (133, 133), (160, 160), (5760, 5760), (8192, 8202), (8232, 8233),
   (8239, 8239), (8287, 8287), (12288, 12288)]

/-- A blank character. -/
def isBlank (c : Char) : Bool := blankRanges.has c

/-- An information separator. -/
def isSeparator (c : Char) : Bool := 28 ≤ c.toNat && c.toNat ≤ 31

/-- White space: a blank that is no information separator. -/
def isWhite (c : Char) : Bool := isBlank c && !isSeparator c

/-- The text without the blanks at its front. -/
def trimStart (s : Text) : Text := s.dropWhile isBlank

/-- The text without the blanks at its back. -/
def trimEnd (s : Text) : Text := (s.reverse.dropWhile isBlank).reverse

/-- The text without the blanks at its two ends. -/
def trim (s : Text) : Text := trimEnd (trimStart s)

theorem length_trimStart_le (s : Text) : (trimStart s).length ≤ s.length :=
  (List.dropWhile_suffix _).length_le

end AnnotatedEquation.Text
