/-
AnnotatedEquation/Command/Choice.lean

Choosing among words of ASCII without regard to letter case.

Letter case is that of Unicode, where some characters outside ASCII are
forms of ASCII letters: the long s, the Kelvin sign, the sharp s and the
ligatures.
-/
import AnnotatedEquation.Text.Basic

namespace AnnotatedEquation.Choice

/-- The characters outside ASCII that are forms of ASCII letters. -/
def letterForms : List (Char × Text) :=
  [('ß', ['s', 's']), ('ſ', ['s']), ('ẞ', ['s', 's']), ('\u212a', ['k']), ('ﬀ', ['f', 'f']),
   ('ﬁ', ['f', 'i']), ('ﬂ', ['f', 'l']), ('ﬃ', ['f', 'f', 'i']), ('ﬄ', ['f', 'f', 'l']),
   ('ﬅ', ['s', 't']), ('ﬆ', ['s', 't'])]

/-- A character without regard to letter case, if that is ASCII. -/
def foldChar (c : Char) : Text := (letterForms.lookup c).getD [c.toLower]

/-- A word without regard to letter case. -/
def fold (s : Text) : Text := s.flatMap foldChar

/-- The first of the words that a text stands for. -/
def find? (words : List Text) (s : Text) : Option Text := words.find? (fold · = fold s)

end AnnotatedEquation.Choice
