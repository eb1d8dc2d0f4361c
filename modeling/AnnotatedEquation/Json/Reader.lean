/-
AnnotatedEquation/Json/Reader.lean

Reading JSON texts.

The grammar is that of the standard with three additions: `NaN`, `Infinity`
and `-Infinity` are numbers, and a member that comes again replaces the
earlier one in its place.  Control characters may not stand in strings.

Every reader takes a text and gives the value in front with what follows it.
Reading ends at the first fault.  A whole number of more digits than
`Text.maxDigits` is in the grammar, but it is not read.
-/
import AnnotatedEquation.Json.Basic
import AnnotatedEquation.Text.Numeral

namespace AnnotatedEquation.Json

/-- Why a text is not read. -/
inductive Fault where
  /-- The text is not in the grammar. -/
  | malformed
  /-- A whole number has too many digits. -/
  | overlong
  deriving DecidableEq, Repr

/-- What is in the grammar, if it is there. -/
def expected {α : Type} : Option α → Except Fault α
  | some value => .ok value
  | none => .error .malformed

/-! ### Strings -/

/-- The value of a hexadecimal digit. -/
def hexValue? (c : Char) : Option Nat :=
  if '0' ≤ c ∧ c ≤ '9' then some (c.toNat - 48)
  else if 'a' ≤ c ∧ c ≤ 'f' then some (c.toNat - 87)
  else if 'A' ≤ c ∧ c ≤ 'F' then some (c.toNat - 55)
  else none

/-- The value of four hexadecimal digits. -/
def unit? (a b c d : Char) : Option Nat := do
  return ((← hexValue? a) * 16 + (← hexValue? b)) * 256 + (← hexValue? c) * 16 + (← hexValue? d)

/-- The letter of a code unit that stands alone. -/
def letterOfUnit (unit : Nat) : Letter :=
  if 0xD800 ≤ unit ∧ unit < 0xE000 then .half unit else .char (Char.ofNat unit)

/-- The character of two code units that form a pair. -/
def charOfPair? (high low : Nat) : Option Char :=
  if 0xD800 ≤ high ∧ high < 0xDC00 ∧ 0xDC00 ≤ low ∧ low < 0xE000 then
    some (Char.ofNat (0x10000 + (high - 0xD800) * 0x400 + (low - 0xDC00)))
  else none

/-- The character behind a backslash, for the escapes of one letter. -/
def escaped? : Char → Option Char
  | '"' => some '"'
  | '\\' => some '\\'
  | '/' => some '/'
  | 'b' => some '\x08'
  | 'f' => some '\x0c'
  | 'n' => some '\n'
  | 'r' => some '\r'
  | 't' => some '\t'
  | _ => none

/-- Puts a letter in front of what was read. -/
def prefixed (l : Letter) : Option (List Letter × Text) → Option (List Letter × Text) :=
  Option.map fun (letters, rest) => (l :: letters, rest)

/-- The rest of a string whose opening quote has been read. -/
def readString : Text → Option (List Letter × Text)
  | [] => none
  | '"' :: s => some ([], s)
  | '\\' :: 'u' :: a :: b :: c :: d :: '\\' :: 'u' :: e :: f :: g :: h :: s =>
    match unit? a b c d, unit? e f g h with
    | some high, some low =>
      match charOfPair? high low with
      | some c => prefixed (.char c) (readString s)
      | none => prefixed (letterOfUnit high) (readString ('\\' :: 'u' :: e :: f :: g :: h :: s))
    | _, _ => none
  | '\\' :: 'u' :: a :: b :: c :: d :: s =>
    (unit? a b c d).bind fun unit => prefixed (letterOfUnit unit) (readString s)
  | '\\' :: c :: s => (escaped? c).bind fun c => prefixed (.char c) (readString s)
  | c :: s => if c.toNat < 0x20 then none else prefixed (.char c) (readString s)

/-! ### Numbers -/

/-- A digit of a JSON number. -/
def isDigit (c : Char) : Bool := '0' ≤ c && c ≤ '9'

/-- The number that digits write. -/
def numeral (digits : Text) : Nat :=
  digits.foldl (fun n c => 10 * n + (c.toNat - 48)) 0

/-- The digits in front of a text, at least one, with what follows them. -/
def digits? (s : Text) : Option (Text × Text) :=
  if s.takeWhile isDigit = [] then none else some (s.takeWhile isDigit, s.dropWhile isDigit)

/-- The digits of a fraction, if one is in front. -/
def fraction? : Text → Option (Text × Text)
  | '.' :: s => digits? s
  | _ => none

/-- The exponent, if one is in front. -/
def exponent? : Text → Option (Int × Text)
  | e :: s =>
    if e = 'e' ∨ e = 'E' then
      match s with
      | '-' :: s => (digits? s).map fun (ds, rest) => (-(numeral ds : Int), rest)
      | '+' :: s => (digits? s).map fun (ds, rest) => ((numeral ds : Int), rest)
      | s => (digits? s).map fun (ds, rest) => ((numeral ds : Int), rest)
    else none
  | [] => none

/-- The digits before the fraction: a zero, or digits that begin with no
zero. -/
def integral? : Text → Option (Text × Text)
  | '0' :: s => some (['0'], s)
  | s => digits? s

/-- A number without its sign. -/
def readUnsigned (negative : Bool) (s : Text) : Except Fault (Json × Text) := do
  let (front, s₁) ← expected (integral? s)
  match fraction? s₁, exponent? ((fraction? s₁).map Prod.snd |>.getD s₁) with
  | none, none =>
    if front.length ≤ Text.maxDigits then
      let n : Int := numeral front
      .ok (.whole (if negative then -n else n), s₁)
    else .error .overlong
  | fraction, exponent =>
    let places := (fraction.map Prod.fst).getD []
    let scale := (exponent.map Prod.fst).getD 0 - places.length
    let rest := (exponent.map Prod.snd).getD ((fraction.map Prod.snd).getD s₁)
    .ok (.real (.ofDecimal negative (numeral (front ++ places)) scale), rest)

/-! ### Values -/

/-- A blank of JSON. -/
def isSpace (c : Char) : Bool := c = ' ' || c = '\t' || c = '\n' || c = '\r'

/-- The text without the blanks at its front. -/
def skip (s : Text) : Text := s.dropWhile isSpace

/-- A value that a word writes. -/
def word? (s : Text) : Option (Json × Text) :=
  let word (w : String) (value : Json) : Option (Json × Text) :=
    (Text.after? w.toList s).map fun rest => (value, rest)
  word "null" .null <|> word "true" (.bool true) <|> word "false" (.bool false)
    <|> word "NaN" (.real .nan) <|> word "Infinity" (.real (.infinite false))
    <|> word "-Infinity" (.real (.infinite true))

/-- A value that a word or a number writes. -/
def readScalar (s : Text) : Except Fault (Json × Text) :=
  match word? s with
  | some found => .ok found
  | none =>
    match s with
    | '-' :: s => readUnsigned true s
    | s => readUnsigned false s

mutual

/-- The value in front of a text.  The fuel bounds the steps; a step that
takes no character is followed by one that does, so twice the length of the
text is enough. -/
def readValue : Nat → Text → Except Fault (Json × Text)
  | 0, _ => .error .malformed
  | _ + 1, '"' :: s => do
    let (letters, rest) ← expected (readString s)
    .ok (.string letters, rest)
  | fuel + 1, '[' :: s =>
    match skip s with
    | ']' :: rest => .ok (.array [], rest)
    | s => do
      let (items, rest) ← readItems fuel s
      .ok (.array items, rest)
  | fuel + 1, '{' :: s =>
    match skip s with
    | '}' :: rest => .ok (.object [], rest)
    | s => do
      let (members, rest) ← readMembers fuel [] s
      .ok (.object members, rest)
  | _ + 1, s => readScalar s

/-- The items of an array up to its end. -/
def readItems : Nat → Text → Except Fault (List Json × Text)
  | 0, _ => .error .malformed
  | fuel + 1, s => do
    let (value, s) ← readValue fuel s
    match skip s with
    | ']' :: rest => .ok ([value], rest)
    | ',' :: s =>
      let (items, rest) ← readItems fuel (skip s)
      .ok (value :: items, rest)
    | _ => .error .malformed

/-- The members of an object up to its end, after those read already. -/
def readMembers : Nat → Entries Json (List Letter) → Text →
    Except Fault (Entries Json (List Letter) × Text)
  | 0, _, _ => .error .malformed
  | fuel + 1, done, '"' :: s => do
    let (key, s) ← expected (readString s)
    match skip s with
    | ':' :: s =>
      let (value, s) ← readValue fuel (skip s)
      let done := Entries.put key value done
      match skip s with
      | '}' :: rest => .ok (done, rest)
      | ',' :: s => readMembers fuel done (skip s)
      | _ => .error .malformed
    | _ => .error .malformed
  | _ + 1, _, _ => .error .malformed

end

/-- The value that a whole text writes. -/
def read (s : Text) : Except Fault Json := do
  let (value, rest) ← readValue (2 * s.length + 2) (skip s)
  if skip rest = [] then .ok value else .error .malformed

/-- The value that a whole text writes, if it is read. -/
def read? (s : Text) : Option Json := (read s).toOption

end AnnotatedEquation.Json
