/-
AnnotatedEquation/Proofs/Palette/Overlong.lean

Palette files with a number that is too long.  A whole number of more than
`Text.maxDigits` digits ends the reading of a file at once, without a message.

Main statements: such a number is not read (`Json.readUnsigned_overlong`), and
a file that lists one among its colors writes no palette
(`Palette.ofText_overlong`).
-/
import AnnotatedEquation.Palette.Reader

namespace AnnotatedEquation

variable {digits rest : Text}

namespace Json

/-- The digits. -/
def digitLetters : Text := ['0', '1', '2', '3', '4', '5', '6', '7', '8', '9']

theorem mem_digitLetters {c : Char} (h : isDigit c) : c ∈ digitLetters := by
  have hall : ∀ n < 128, isDigit (Char.ofNat n) → Char.ofNat n ∈ digitLetters := by decide
  have hle : '0' ≤ c ∧ c ≤ '9' := by simpa [isDigit] using h
  have hcode : c.toNat < 128 := Nat.lt_of_le_of_lt hle.2 (by decide)
  have hdigit := hall c.toNat hcode
  rw [Char.ofNat_toNat] at hdigit
  exact hdigit h

/-! ### Numbers -/

/-- **A whole number of too many digits is not read.** -/
theorem readUnsigned_overlong (hdigits : ∀ c ∈ digits, isDigit c) (hfirst : digits.head? ≠ some '0')
    (hlong : Text.maxDigits < digits.length) (hrest : ∀ c ∈ rest.head?, isDigit c = false)
    (hwhole : fraction? rest = none ∧ exponent? rest = none) (negative : Bool) :
    readUnsigned negative (digits ++ rest) = .error .overlong := by
  have hne : digits ≠ [] := by
    rintro rfl
    exact absurd hlong (Nat.not_lt_zero _)
  have htake : (digits ++ rest).takeWhile isDigit = digits := by
    rw [List.takeWhile_append_of_pos hdigits]
    cases rest with
    | nil => simp
    | cons c rest => rw [List.takeWhile_cons_of_neg (by simp [hrest c rfl]), List.append_nil]
  have hdrop : (digits ++ rest).dropWhile isDigit = rest := by
    rw [List.dropWhile_append_of_pos hdigits]
    cases rest with
    | nil => rfl
    | cons c rest => exact List.dropWhile_cons_of_neg (by simp [hrest c rfl])
  have hintegral : integral? (digits ++ rest) = some (digits, rest) := by
    have hread : digits? (digits ++ rest) = some (digits, rest) := by
      rw [digits?, htake, hdrop, if_neg hne]
    obtain ⟨d, ds, rfl⟩ := List.exists_cons_of_ne_nil hne
    rw [← hread, List.cons_append, integral?]
    intro s h
    obtain ⟨rfl, -⟩ := List.cons.inj h
    exact hfirst rfl
  simp only [readUnsigned, hintegral, expected, bind, Except.bind, hwhole.1, hwhole.2,
    Option.map_none, Option.getD_none, if_neg (Nat.not_le.2 hlong)]

/-! ### Values that begin with a number -/

variable {fuel : Nat} {s : Text} {c : Char} {fault : Fault}

theorem readValue_digit (h : isDigit c) :
    readValue (fuel + 1) (c :: s) = readUnsigned false (c :: s) := by
  have hall : ∀ d ∈ digitLetters, readValue (fuel + 1) (d :: s) = readUnsigned false (d :: s) := by
    simp only [digitLetters, List.forall_mem_cons]
    exact ⟨rfl, rfl, rfl, rfl, rfl, rfl, rfl, rfl, rfl, rfl, List.forall_mem_nil _⟩
  exact hall c (mem_digitLetters h)

/-- A fault in the first item of an array is one of the array. -/
theorem readValue_bracket (h : isDigit c) (hitem : readUnsigned false (c :: s) = .error fault) :
    readValue (fuel + 3) ('[' :: c :: s) = .error fault := by
  have hall : ∀ d ∈ digitLetters, readValue (fuel + 3) ('[' :: d :: s) =
      readItems (fuel + 2) (d :: s) >>= fun found => .ok (.array found.1, found.2) := by
    simp only [digitLetters, List.forall_mem_cons]
    exact ⟨rfl, rfl, rfl, rfl, rfl, rfl, rfl, rfl, rfl, rfl, List.forall_mem_nil _⟩
  rw [hall c (mem_digitLetters h), readItems, readValue_digit h, hitem]
  rfl

/-- A fault in the first member of an object is one of the object. -/
theorem readValue_colors (hcolors : readValue fuel ('[' :: s) = .error fault) :
    readValue (fuel + 2) ("\x7b\"colors\": [".toList ++ s) = .error fault := by
  have hobject : ∀ x, readValue (fuel + 2) ('{' :: '"' :: x) =
      readMembers (fuel + 1) [] ('"' :: x) >>= fun found => .ok (.object found.1, found.2) :=
    fun _ => rfl
  have hkey : readString ("colors\": [".toList ++ s) =
      some (lettersOf "colors".toList, ':' :: ' ' :: '[' :: s) := rfl
  have hcolon : skip (':' :: ' ' :: '[' :: s) = ':' :: ' ' :: '[' :: s := rfl
  have hvalue : skip (' ' :: '[' :: s) = '[' :: s := rfl
  have hmembers : readMembers (fuel + 1) [] ('"' :: ("colors\": [".toList ++ s)) = .error fault := by
    rw [readMembers, hkey]
    simp only [expected, bind, Except.bind, hcolon, hvalue, hcolors]
  refine (hobject ("colors\": [".toList ++ s)).trans ?_
  rw [hmembers]
  rfl

end Json

/-! ### Palette files -/

/-- **A file that lists a number of too many digits writes no palette**, and
nothing is said about it. -/
theorem Palette.ofText_overlong (path : Path) (hdigits : ∀ c ∈ digits, Json.isDigit c)
    (hfirst : digits.head? ≠ some '0') (hlong : Text.maxDigits < digits.length) :
    ofText path ("\x7b\"colors\": [".toList ++ (digits ++ "]\x7d".toList)) =
      .error (.undecodable path.text) := by
  have hnumber : Json.readUnsigned false (digits ++ "]\x7d".toList) = .error .overlong :=
    Json.readUnsigned_overlong hdigits hfirst hlong (by decide) (by decide) false
  have hne : digits ≠ [] := by
    rintro rfl
    exact absurd hlong (Nat.not_lt_zero _)
  obtain ⟨c, ds, rfl⟩ := List.exists_cons_of_ne_nil hne
  have hc : Json.isDigit c := hdigits c List.mem_cons_self
  have hread : Json.read ("\x7b\"colors\": [".toList ++ (c :: ds ++ "]\x7d".toList)) =
      .error .overlong := by
    have hskip : ∀ s, Json.skip ("\x7b\"colors\": [".toList ++ s) = "\x7b\"colors\": [".toList ++ s :=
      fun _ => rfl
    -- the fuel is enough for the four steps up to the number
    obtain ⟨fuel, hfuel⟩ : ∃ fuel,
        2 * ("\x7b\"colors\": [".toList ++ (c :: ds ++ "]\x7d".toList)).length + 2 = fuel + 5 := by
      refine ⟨2 * ("\x7b\"colors\": [".toList ++ (c :: ds ++ "]\x7d".toList)).length - 3, ?_⟩
      have hlength : 1 < ("\x7b\"colors\": [".toList ++ (c :: ds ++ "]\x7d".toList)).length := by
        rw [List.length_append]
        exact Nat.lt_add_right _ (by decide)
      omega
    have hvalue : Json.readValue (fuel + 5) ("\x7b\"colors\": [".toList ++ (c :: ds ++ "]\x7d".toList)) =
        .error .overlong := Json.readValue_colors (Json.readValue_bracket hc hnumber)
    rw [Json.read, hskip, hfuel, hvalue]
    rfl
  rw [ofText, hread]

end AnnotatedEquation
