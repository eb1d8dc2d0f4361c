/-
AnnotatedEquation/Text/Quoted.lean

Quoted texts, as diagnostics show them: between single quotes, or between
double quotes where the text holds a single quote and no double one.  The
quote and the backslash are escaped by a backslash; tab, line feed and
carriage return have letters, and any other character that is not printable
is given by the hexadecimal digits of its code point.
-/
import AnnotatedEquation.Text.Basic
import AnnotatedEquation.Text.Printable

namespace AnnotatedEquation.Text

/-- A character inside quotes. -/
def quotedChar (quote c : Char) : Text :=
  if c = quote ∨ c = '\\' then ['\\', c]
  else if c = '\t' then ['\\', 't']
  else if c = '\n' then ['\\', 'n']
  else if c = '\r' then ['\\', 'r']
  else if isPrintable c then [c]
  else if c.toNat < 0x100 then ['\\', 'x'] ++ hexadecimal 2 c.toNat
  else if c.toNat < 0x10000 then ['\\', 'u'] ++ hexadecimal 4 c.toNat
  else ['\\', 'U'] ++ hexadecimal 8 c.toNat

/-- The quote that a text is put between. -/
def quoteOf (s : Text) : Char := if '\'' ∈ s ∧ '"' ∉ s then '"' else '\''

/-- The text between quotes. -/
def quoted (s : Text) : Text :=
  [quoteOf s] ++ s.flatMap (quotedChar (quoteOf s)) ++ [quoteOf s]

end AnnotatedEquation.Text
