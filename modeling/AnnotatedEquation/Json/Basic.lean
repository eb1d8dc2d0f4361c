/-
AnnotatedEquation/Json/Basic.lean

JSON values, with the members of an object in order, and their display in
diagnostics.
-/
import AnnotatedEquation.Decimal.Shortest
import AnnotatedEquation.Entries
import AnnotatedEquation.Text.Quoted

namespace AnnotatedEquation

/-- A letter of a string: a character, or half of a surrogate pair that
stands alone. -/
inductive Json.Letter where
  | char (c : Char)
  | half (unit : Nat)
  deriving DecidableEq, Repr

/-- A JSON value.  A number without a fraction and without an exponent is a
whole number. -/
inductive Json where
  | null
  | bool (value : Bool)
  | whole (value : Int)
  | real (value : Binary64)
  | string (letters : List Json.Letter)
  | array (items : List Json)
  | object (members : List (List Json.Letter × Json))
  deriving Repr

namespace Json

/-! ### Letters -/

/-- The character of a letter.  Half of a pair stands for no character and is
replaced. -/
def Letter.toChar : Letter → Char
  | char c => c
  | half _ => '\uFFFD'

/-- The letters as text. -/
def textOf (letters : List Letter) : Text := letters.map Letter.toChar

/-- The letters of a text. -/
def lettersOf (s : Text) : List Letter := s.map Letter.char

/-- The text of a string. -/
def text? : Json → Option Text
  | string letters => some (textOf letters)
  | _ => none

/-- Letters between quotes. -/
def quotedLetters (letters : List Letter) : Text :=
  let quote := Text.quoteOf (textOf letters)
  [quote] ++ letters.flatMap (fun
    | .char c => Text.quotedChar quote c
    | .half unit => ['\\', 'u'] ++ Text.hexadecimal 4 unit) ++ [quote]

/-! ### Members -/

/-- The value of a member of an object. -/
def member? : Json → Text → Option Json
  | object members, key => members.lookup (lettersOf key)
  | _, _ => none

/-- The value says nothing: it is null, false, zero or empty. -/
def isVoid : Json → Bool
  | null => true
  | bool value => !value
  | whole value => value = 0
  | real value => value.isZero
  | string letters => letters.isEmpty
  | array items => items.isEmpty
  | object members => members.isEmpty

/-! ### Display -/

/-- A whole number in decimal digits. -/
def displayWhole (n : Int) : Text :=
  (if n < 0 then ['-'] else []) ++ Text.ofNat n.natAbs

/-- The parts with a comma and a space between neighbours. -/
def listed (parts : List Text) : Text := Text.joinWith [',', ' '] parts

mutual

/-- The value as diagnostics show it. -/
def display : Json → Text
  | null => "None".toList
  | bool true => "True".toList
  | bool false => "False".toList
  | whole value => displayWhole value
  | real value => value.display
  | string letters => quotedLetters letters
  | array items => ['['] ++ listed (displayItems items) ++ [']']
  | object members => ['{'] ++ listed (displayMembers members) ++ ['}']

/-- The items of an array as diagnostics show them. -/
def displayItems : List Json → List Text
  | [] => []
  | value :: rest => display value :: displayItems rest

/-- The members of an object as diagnostics show them. -/
def displayMembers : List (List Letter × Json) → List Text
  | [] => []
  | (key, value) :: rest =>
    (quotedLetters key ++ [':', ' '] ++ display value) :: displayMembers rest

end

end Json

end AnnotatedEquation
