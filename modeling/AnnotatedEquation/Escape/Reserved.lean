/-
AnnotatedEquation/Escape/Reserved.lean

Escaping of reserved characters, where the author may have escaped a dollar
sign already: a backslash with a dollar sign behind it stays as it is, and
any other reserved character is replaced.
-/
import AnnotatedEquation.Text.Basic

namespace AnnotatedEquation

namespace Reserved

/-- The text with each character written by `token`, but for the dollar
signs that are escaped already. -/
def escape (token : Char → Text) : Text → Text
  | [] => []
  | '\\' :: '$' :: s => '\\' :: '$' :: escape token s
  | c :: s => token c ++ escape token s

end Reserved

/-- A character of LaTeX text: the reserved ones are escaped or named. -/
def Latex.token (c : Char) : Text :=
  if c ∈ ['{', '}', '$', '&', '%', '#', '_'] then ['\\', c]
  else if c = '\\' then "\\textbackslash\x7b\x7d".toList
  else if c = '~' then "\\textasciitilde\x7b\x7d".toList
  else if c = '^' then "\\textasciicircum\x7b\x7d".toList
  else [c]

/-- Text for LaTeX, math not regarded. -/
def Latex.escape (s : Text) : Text := Reserved.escape Latex.token s

/-- A character of Typst text: the reserved ones are escaped. -/
def Typst.token (c : Char) : Text :=
  if c ∈ ['\\', '#', '*', '_', '[', ']', '\x60', '$'] then ['\\', c] else [c]

/-- Text for Typst, math not regarded. -/
def Typst.escape (s : Text) : Text := Reserved.escape Typst.token s

end AnnotatedEquation
