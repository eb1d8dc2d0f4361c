/-
AnnotatedEquation/Decimal/Shortest.lean

The shortest decimal text of a floating-point number: of the decimals that
read back as the number, one with the fewest digits, and of those the
nearest.

* `Shortest.digits` finds the digits on the grids of 1, 2, … 17 digits;
* `Binary64.display` lays them out: positional from 0.0001 to below 10^16,
  with an exponent of at least two digits elsewhere.
-/
import AnnotatedEquation.Decimal.Binary64
import AnnotatedEquation.Text.Basic

namespace AnnotatedEquation

namespace Shortest

open Binary64 (twoTo tenTo)

/-- The interval of reals that round to a number, as numerators over a
common denominator, with the number itself.  The ends count if the mantissa
is even. -/
structure Interval where
  low : Nat
  value : Nat
  high : Nat
  den : Nat
  closed : Bool

/-- The interval of `mantissa * 2 ^ exponent`. -/
def interval (mantissa : Nat) (exponent : Int) : Interval :=
  let below := if mantissa = twoTo 52 ∧ exponent > -1074 then 1 else 2
  let e := exponent - 2
  let up := twoTo e.toNat
  { low := (4 * mantissa - below) * up
    value := 4 * mantissa * up
    high := (4 * mantissa + 2) * up
    den := twoTo (-e).toNat
    closed := mantissa % 2 = 0 }

/-- The decimal `n * 10 ^ scale` as a quotient of the interval's
denominator, scaled so that both are whole: the pair of the two factors. -/
def factors (scale : Int) : Nat × Nat := (tenTo scale.toNat, tenTo (-scale).toNat)

/-- The decimal `n * 10 ^ scale` rounds to the number. -/
def Interval.has (i : Interval) (n : Nat) (scale : Int) : Bool :=
  let (up, down) := factors scale
  let x := n * up * i.den
  if i.closed then i.low * down ≤ x && x ≤ i.high * down
  else i.low * down < x && x < i.high * down

/-- The best decimal of the grid `10 ^ scale`: of the number's two
neighbours that round to it, the nearer, and the even one on a tie. -/
def Interval.onGrid (i : Interval) (scale : Int) : Option Nat :=
  let (up, down) := factors scale
  let step := up * i.den
  let n := i.value * down / step
  let twice := 2 * (i.value * down % step)
  let nearer := if twice < step ∨ (twice = step ∧ n % 2 = 0) then n else n + 1
  let farther := if nearer = n then n + 1 else n
  if i.has nearer scale then some nearer
  else if i.has farther scale then some farther
  else none

/-- The scale of the digit in front, that is the greatest `k` with
`10 ^ k` at most `num / den`, from a first guess downwards. -/
def leadingScale (num den : Nat) : Nat → Int → Int
  | 0, k => k
  | fuel + 1, k =>
    let (up, down) := factors k
    if up * den ≤ num * down then k else leadingScale num den fuel (k - 1)

/-- The shortest digits of `mantissa * 2 ^ exponent` and the scale of the
last one. -/
def digits (mantissa : Nat) (exponent : Int) : Nat × Int :=
  let i := interval mantissa exponent
  let top := leadingScale i.value i.den 700 (Int.ofNat ((Nat.toDigits 10 (i.value / i.den)).length))
  ((List.range 17).findSome? fun (n : Nat) =>
    (i.onGrid (top - n)).map fun d => (d, top - n)).getD (0, 0)

end Shortest

namespace Binary64

/-- Digits laid out with the point behind the first `point` of them, filled
up with zeros. -/
def positional (digits : Text) (point : Int) : Text :=
  if point ≤ 0 then ['0', '.'] ++ List.replicate (-point).toNat '0' ++ digits
  else if point < digits.length then
    digits.take point.toNat ++ ['.'] ++ digits.drop point.toNat
  else digits ++ List.replicate (point.toNat - digits.length) '0' ++ ['.', '0']

/-- Digits laid out with the point behind the first one and an exponent. -/
def scientific (digits : Text) (exponent : Int) : Text :=
  let size := Text.ofNat exponent.natAbs
  digits.take 1 ++ (if digits.length = 1 then [] else '.' :: digits.drop 1)
    ++ ['e', if exponent < 0 then '-' else '+']
    ++ (if size.length < 2 then '0' :: size else size)

/-- The shortest text that reads back as the number. -/
def display : Binary64 → Text
  | nan => "nan".toList
  | infinite negative => (if negative then ['-'] else []) ++ "inf".toList
  | finite negative mantissa exponent =>
    (if negative then ['-'] else []) ++
      if mantissa = 0 then ['0', '.', '0']
      else
        let (n, scale) := Shortest.digits mantissa exponent
        let all := Text.ofNat n
        let point : Int := all.length + scale
        let kept := (all.reverse.dropWhile (· = '0')).reverse
        if -4 < point ∧ point ≤ 16 then positional kept point
        else scientific kept (point - 1)

end Binary64

end AnnotatedEquation
