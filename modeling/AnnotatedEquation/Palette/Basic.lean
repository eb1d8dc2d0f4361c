/-
AnnotatedEquation/Palette/Basic.lean

Palettes, and the color of a term: the color at the place that the term has
in the term order.

A color is a hash and three or six hexadecimal digits; one line feed may
follow.

* `Palette.colorFor` resolves one term and `Palette.termColors` all of them;
* `hexDigits` gives the six digits of a color in upper case;
* `colorName` is what a document calls the color of a term.
-/
import AnnotatedEquation.Failure
import AnnotatedEquation.Text.Case

namespace AnnotatedEquation

/-! ### Colors -/

/-- A hexadecimal digit of ASCII. -/
def isHexDigit (c : Char) : Bool :=
  ('0' ≤ c && c ≤ '9') || ('a' ≤ c && c ≤ 'f') || ('A' ≤ c && c ≤ 'F')

/-- The text without one line feed at its end. -/
def dropFinalNewline (s : Text) : Text :=
  if s.getLast? = some '\n' then s.dropLast else s

/-- The text is a color. -/
def isHexColor : Text → Bool
  | '#' :: s =>
    let digits := dropFinalNewline s
    (digits.length = 3 || digits.length = 6) && digits.all isHexDigit
  | _ => false

/-- The digits of a color in upper case, each twice if there are three. -/
def hexDigits (color : Text) : Text :=
  let digits := color.dropWhile (· = '#')
  Text.upper (if digits.length = 3 then digits.flatMap fun c => [c, c] else digits)

/-- The name by which a document refers to the color of a term. -/
def colorName (term : Text) : Text := "term".toList ++ term

/-! ### Palettes -/

/-- A named list of colors. -/
structure Palette where
  name : Text
  colors : List Text
  all_hex : colors.all isHexColor
  deriving DecidableEq, Repr

namespace Palette

/-- The color that a value gives. -/
def color? (value : Json) : Option Text := value.text?.filter isHexColor

theorem isHexColor_of_color? {value : Json} {color : Text} (h : color? value = some color) :
    isHexColor color :=
  (Option.filter_eq_some_iff.1 h).2

/-- The palette of some listed values; those that are no colors are
complained about. -/
def ofValues (name : Text) (values : List Json) : Except Failure Palette :=
  match values.filter fun value => (color? value).isNone with
  | [] => .ok
    { name := name
      colors := values.filterMap color?
      all_hex := by
        simp only [List.all_eq_true, List.mem_filterMap]
        rintro color ⟨value, -, h⟩
        exact isHexColor_of_color? h }
  | bad => .error (.badColors name bad)

/-- The number of colors. -/
def size (p : Palette) : Nat := p.colors.length

/-- The color of a term: the one at the place of the term in the order. -/
def colorFor (p : Palette) (termOrder : List Text) (term : Text) : Except Failure Text :=
  match termOrder.idxOf? term with
  | none => .error (.unknownTerm term)
  | some index =>
    match p.colors[index]? with
    | none => .error (.paletteTooShort term index p.name p.size)
    | some color => .ok color

/-- The terms with their colors, each term at its first place. -/
def termColors (p : Palette) (termOrder : List Text) : Except Failure (Entries Text) :=
  termOrder.eraseDups.mapM fun term => do return (term, ← p.colorFor termOrder term)

end Palette

end AnnotatedEquation
