/-
AnnotatedEquation/Escape/Html.lean

Characters with a meaning in HTML, written as entities.  Three writings are
in use, which differ in the quotes alone: content keeps them, author text
names or numbers them in hexadecimal, and the slots of the page number them
in decimal.
-/
import AnnotatedEquation.Text.Basic

namespace AnnotatedEquation.Html

/-- The entity of an ampersand or an angle bracket; any other character as
`other` writes it. -/
def entity (other : Char → Text) (c : Char) : Text :=
  if c = '&' then "&amp;".toList
  else if c = '<' then "&lt;".toList
  else if c = '>' then "&gt;".toList
  else other c

/-- A quote in author text. -/
def namedQuote (c : Char) : Text :=
  if c = '"' then "&quot;".toList else if c = '\'' then "&#x27;".toList else [c]

/-- A quote in a slot of the page. -/
def numberedQuote (c : Char) : Text :=
  if c = '"' then "&#34;".toList else if c = '\'' then "&#39;".toList else [c]

/-- Text as the content of an element; quotes stay. -/
def escapeContent (s : Text) : Text := s.flatMap (entity fun c => [c])

/-- Author text, fit for content and for attributes. -/
def escape (s : Text) : Text := s.flatMap (entity namedQuote)

/-- A value in a slot of the page. -/
def escapeSlot (s : Text) : Text := s.flatMap (entity numberedQuote)

end AnnotatedEquation.Html
