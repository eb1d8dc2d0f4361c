/-
AnnotatedEquation/Document/ColorLiteral.lean

Color literals in Typst text and the names of colors that stand for them.

The literal of a color is `rgb("#digits")`, or `#digits` where no
hexadecimal digit follows; letter case does not matter.  The literals of one
term are replaced after those of another, in order.

What replaces a literal is written as a template, in which a backslash
introduces an escape, so that the name of a term may be no template at all
(`Template.read?`).
-/
import AnnotatedEquation.Palette.Basic
import AnnotatedEquation.Text.Case
import AnnotatedEquation.Text.Numeral

namespace AnnotatedEquation

/-! ### Templates -/

/-- A piece of a template: a character, or the text that is replaced. -/
inductive Template.Piece where
  | char (c : Char)
  | whole
  deriving DecidableEq, Repr

/-- What a replaced text becomes. -/
abbrev Template := List Template.Piece

namespace Template

/-- An octal digit. -/
def isOctal (c : Char) : Bool := '0' ≤ c && c ≤ '7'

/-- A decimal digit of ASCII. -/
def isDigit (c : Char) : Bool := '0' ≤ c && c ≤ '9'

/-- The number that octal digits write. -/
def octal (digits : Text) : Nat := digits.foldl (fun n c => 8 * n + (c.toNat - 48)) 0

/-- The character behind a backslash for the escapes of one character.  A
letter that is no escape is refused. -/
def escape? (c : Char) : Option Text :=
  if c = 'a' then some ['\x07']
  else if c = 'b' then some ['\x08']
  else if c = 'f' then some ['\x0c']
  else if c = 'n' then some ['\n']
  else if c = 'r' then some ['\r']
  else if c = 't' then some ['\t']
  else if c = 'v' then some ['\x0b']
  else if c = '\\' then some ['\\']
  else if ('a' ≤ c ∧ c ≤ 'z') ∨ ('A' ≤ c ∧ c ≤ 'Z') then none
  else some ['\\', c]

/-- The pieces of a template.  There are no groups to refer to but the whole
text, which is group 0, however the number is written; a zero with up to two
octal digits behind it, or three octal digits up to 377, give a character. -/
def read? (s : Text) : Option Template :=
  match s with
  | [] => some []
  | '\\' :: 'g' :: '<' :: s =>
    let name := s.takeWhile (· ≠ '>')
    match _h : s.dropWhile (· ≠ '>') with
    | '>' :: rest =>
      if Text.integer? name = some 0 then (read? rest).map (Piece.whole :: ·) else none
    | _ => none
  | '\\' :: '0' :: s =>
    let digits := (s.take 2).takeWhile isOctal
    (read? (s.drop digits.length)).map (Piece.char (Char.ofNat (octal digits % 256)) :: ·)
  | '\\' :: a :: s =>
    if isDigit a then
      match s with
      | b :: c :: s =>
        if isOctal a ∧ isOctal b ∧ isOctal c ∧ octal [a, b, c] ≤ 255 then
          (read? s).map (Piece.char (Char.ofNat (octal [a, b, c])) :: ·)
        else none
      | _ => none
    else do
      let text ← escape? a
      return text.map Piece.char ++ (← read? s)
  | ['\\'] => none
  | c :: s => (read? s).map (Piece.char c :: ·)
termination_by s.length
decreasing_by
  all_goals simp only [List.length_cons, List.length_drop]
  · have := (List.dropWhile_suffix (l := s) fun x => decide (x ≠ '>')).length_le
    rw [_h] at this
    simp only [List.length_cons] at this
    omega
  all_goals omega

/-- What a text becomes. -/
def fill (template : Template) (text : Text) : Text :=
  template.flatMap fun
    | .char c => [c]
    | .whole => text

end Template

/-! ### Literals -/

namespace ColorLiteral

/-- A literal text, letter case aside, and whether a hexadecimal digit
behind it makes it part of a longer one. -/
structure Pattern where
  text : Text
  barsDigit : Bool

/-- The literal is at the front of a text. -/
def Pattern.isAt (p : Pattern) (s : Text) : Bool :=
  match Text.afterCaseless? p.text s with
  | some rest => !(p.barsDigit && rest.head?.any isHexDigit)
  | none => false

/-- Replaces the literals in a text, from left to right, after leaving out
`skip` characters, which belong to a literal replaced already. -/
def replaceFrom (p : Pattern) (template : Template) (skip : Nat) : Text → Text
  | [] => []
  | c :: s =>
    match skip with
    | skip + 1 => replaceFrom p template skip s
    | 0 =>
      if p.isAt (c :: s) then
        template.fill ((c :: s).take p.text.length)
          ++ replaceFrom p template (p.text.length - 1) s
      else c :: replaceFrom p template 0 s

/-- Replaces the literals in a text. -/
def replace (p : Pattern) (template : Template) (s : Text) : Text := replaceFrom p template 0 s

/-- The literals of a color: `rgb("#digits")`, and `#digits` if bare digits
count. -/
def patterns (bare : Bool) (color : Text) : List Pattern :=
  let digits := color.dropWhile (· = '#')
  ⟨"rgb(\"#".toList ++ digits ++ "\")".toList, false⟩ ::
    if bare then [⟨'#' :: digits, true⟩] else []

/-- Replaces the literals of the color of a term by the name of the color. -/
def replaceTerm (bare : Bool) (s : Text) (term color : Text) : Except Failure Text :=
  match Template.read? (colorName term) with
  | none => .error (.badTemplate (colorName term))
  | some template => .ok ((patterns bare color).foldl (fun s p => replace p template s) s)

/-- Replaces the literals of the colors of all terms, one term after the
other. -/
def replaceAll (bare : Bool) (colors : Entries Text) (s : Text) : Except Failure Text :=
  colors.foldlM (fun s e => replaceTerm bare s e.1 e.2) s

end ColorLiteral

end AnnotatedEquation
