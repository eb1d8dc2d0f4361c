/-
AnnotatedEquation/Decimal/Binary64.lean

Binary floating-point numbers of 64 bits, as exact integers: a finite number
is `mantissa * 2 ^ exponent` with a mantissa below `2 ^ 53` and an exponent
from -1074 to 971.

`Binary64.ofDecimal` reads the decimal `digits * 10 ^ scale`, rounding to
the nearest number and a tie to the even mantissa.
-/

namespace AnnotatedEquation

/-- A binary floating-point number of 64 bits. -/
inductive Binary64 where
  | nan
  | infinite (negative : Bool)
  | finite (negative : Bool) (mantissa : Nat) (exponent : Int)
  deriving DecidableEq, Repr

namespace Binary64

/-- The power of two with an exponent. -/
def twoTo (n : Nat) : Nat := Nat.pow 2 n

/-- The power of ten with an exponent. -/
def tenTo (n : Nat) : Nat := Nat.pow 10 n

/-- The quotient rounded to the nearest whole number, a tie to the even
one. -/
def roundQuotient (num den : Nat) : Nat :=
  let q := num / den
  let twice := 2 * (num % den)
  if twice < den ∨ (twice = den ∧ q % 2 = 0) then q else q + 1

/-- The quotient of `num * 2 ^ (-e)` by `den`, rounded. -/
def scaledQuotient (num den : Nat) (e : Int) : Nat :=
  if e < 0 then roundQuotient (num * twoTo (-e).toNat) den
  else roundQuotient num (den * twoTo e.toNat)

/-- The number nearest to `num / den`, for `num` and `den` above 0. -/
def ofRatio (negative : Bool) (num den : Nat) : Binary64 :=
  let guess : Int := (Nat.log2 num : Int) - Nat.log2 den - 52
  -- `num / den` lies between `2 ^ (guess + 51)` and `2 ^ (guess + 53)`
  let low : Bool := if guess + 52 < 0 then num * twoTo (-(guess + 52)).toNat < den
    else num < den * twoTo (guess + 52).toNat
  let e := if low then guess - 1 else guess
  let e := if e < -1074 then -1074 else e
  let m := scaledQuotient num den e
  let (m, e) := if m = twoTo 53 then (twoTo 52, e + 1) else (m, e)
  if e > 971 then infinite negative else finite negative m e

/-- The number nearest to `digits * 10 ^ scale`.  What is far above the
largest number or far below the smallest is not computed. -/
def ofDecimal (negative : Bool) (digits : Nat) (scale : Int) : Binary64 :=
  let magnitude : Int := (Nat.toDigits 10 digits).length + scale
  if digits = 0 ∨ magnitude < -400 then finite negative 0 (-1074)
  else if magnitude > 400 then infinite negative
  else if scale < 0 then ofRatio negative digits (tenTo (-scale).toNat)
  else ofRatio negative (digits * tenTo scale.toNat) 1

/-- The number is zero, of either sign. -/
def isZero : Binary64 → Bool
  | finite _ 0 _ => true
  | _ => false

end Binary64

end AnnotatedEquation
