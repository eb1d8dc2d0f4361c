/-
AnnotatedEquation/Text/Basic.lean

Texts as lists of code points, with the two ways in which every reader of
this library takes them apart: what follows a known beginning (`after?`),
and what stands before and after the first occurrence of a pattern
(`cutAt?`).

Main statements: both lose nothing (`after?_eq_some_iff`,
`eq_of_cutAt?`).
-/

namespace AnnotatedEquation

/-- A text is the list of its code points. -/
abbrev Text := List Char

instance : LawfulBEq Text := inferInstance

namespace Text

/-! ### Beginnings -/

/-- What follows `p` in a text that begins with `p`. -/
def after? : Text → Text → Option Text
  | [], s => some s
  | _ :: _, [] => none
  | p :: ps, c :: s => if p = c then after? ps s else none

theorem after?_eq_some_iff {p s r : Text} : after? p s = some r ↔ s = p ++ r := by
  induction p generalizing s with
  | nil => simp [after?, eq_comm]
  | cons a p ih =>
    cases s with
    | nil => simp [after?]
    | cons c s =>
      by_cases h : a = c
      · simp [after?, h, ih]
      · simp [after?, h, Ne.symm h]

@[simp] theorem after?_append (p r : Text) : after? p (p ++ r) = some r :=
  after?_eq_some_iff.2 rfl

theorem after?_eq_none_iff {p s : Text} : after? p s = none ↔ ¬ p <+: s := by
  constructor
  · rintro h ⟨r, rfl⟩
    simp at h
  · intro h
    rcases e : after? p s with - | r
    · rfl
    · exact (h ⟨r, (after?_eq_some_iff.1 e).symm⟩).elim

/-! ### Cutting at a pattern -/

/-- The texts before and after the first occurrence of `p`. -/
def cutAt? (p : Text) : Text → Option (Text × Text)
  | [] => if p = [] then some ([], []) else none
  | c :: s =>
    match after? p (c :: s) with
    | some rest => some ([], rest)
    | none => (cutAt? p s).map fun (before, rest) => (c :: before, rest)

theorem eq_of_cutAt? {p s before rest : Text} (h : cutAt? p s = some (before, rest)) :
    s = before ++ p ++ rest := by
  induction s generalizing before with
  | nil =>
    simp only [cutAt?] at h
    split at h <;> simp_all
  | cons c s ih =>
    simp only [cutAt?] at h
    split at h
    · next r hr =>
      simp only [Option.some.injEq, Prod.mk.injEq] at h
      obtain ⟨rfl, rfl⟩ := h
      simpa using after?_eq_some_iff.1 hr
    · simp only [Option.map_eq_some_iff, Prod.mk.injEq, Prod.exists] at h
      obtain ⟨b, r, hbr, rfl, rfl⟩ := h
      simp [ih hbr]

/-! ### Order -/

/-- The order of texts by the code points of the first characters that
differ. -/
def precedes : Text → Text → Bool
  | [], _ => true
  | _ :: _, [] => false
  | a :: s, b :: t => a.toNat < b.toNat || (a = b && precedes s t)

/-! ### Numbers and lines -/

/-- The decimal digits of a number. -/
def ofNat (n : Nat) : Text := Nat.toDigits 10 n

/-- The number in hexadecimal digits, filled up with zeros to a width. -/
def hexadecimal (width n : Nat) : Text :=
  let digits := Nat.toDigits 16 n
  List.replicate (width - digits.length) '0' ++ digits

/-- The texts one after the other, with `glue` between neighbours. -/
def joinWith (glue : Text) (parts : List Text) : Text := glue.intercalate parts

/-- The lines one after the other, each ended by a line feed. -/
def unlines (lines : List Text) : Text := lines.flatMap (· ++ ['\n'])

end Text

end AnnotatedEquation
