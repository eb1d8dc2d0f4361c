/-
AnnotatedEquation/Proofs/Palette/Hex.lean

The characters of colors, few enough to go through all of them.

Main statement: `mem_colorLetters_of_isHexColor`.
-/
import AnnotatedEquation.Palette.Basic

namespace AnnotatedEquation

variable {c : Char} {s color digits : Text}

theorem isHexDigit_iff :
    isHexDigit c ↔ 48 ≤ c.toNat ∧ c.toNat ≤ 57 ∨ 97 ≤ c.toNat ∧ c.toNat ≤ 102 ∨
      65 ≤ c.toNat ∧ c.toNat ≤ 70 := by
  have hle : ∀ x y : Char, x ≤ y ↔ x.toNat ≤ y.toNat := fun x y => Iff.rfl
  simp only [isHexDigit, Bool.or_eq_true, Bool.and_eq_true, decide_eq_true_eq, hle, or_assoc]
  exact Iff.rfl

/-- All hexadecimal digits. -/
def hexLetters : Text := "0123456789abcdefABCDEF".toList

theorem mem_hexLetters (h : isHexDigit c) : c ∈ hexLetters := by
  have hall : ∀ n < 128, isHexDigit (Char.ofNat n) → Char.ofNat n ∈ hexLetters := by decide
  have hcode : c.toNat < 128 := by
    have := isHexDigit_iff.1 h
    omega
  have hdigit := hall c.toNat hcode
  rw [Char.ofNat_toNat] at hdigit
  exact hdigit h

/-- The digits begin behind the hash. -/
theorem dropWhile_hash (h : ∀ c ∈ digits, isHexDigit c) (hne : digits ≠ []) (rest : Text) :
    ('#' :: (digits ++ rest)).dropWhile (· = '#') = digits ++ rest := by
  obtain ⟨d, digits, rfl⟩ := List.exists_cons_of_ne_nil hne
  have hd : d ≠ '#' := by
    rintro rfl
    exact absurd (h '#' List.mem_cons_self) (by decide)
  simp [hd]

theorem mem_dropFinalNewline_or (hc : c ∈ s) : c ∈ dropFinalNewline s ∨ c = '\n' := by
  unfold dropFinalNewline
  split
  · next hlast =>
    obtain ⟨t, rfl⟩ := List.getLast?_eq_some_iff.1 hlast
    simpa using hc
  · exact Or.inl hc

/-- All characters that a color may hold. -/
def colorLetters : Text := '#' :: '\n' :: hexLetters

/-- A color holds the hash, digits and a line feed, and nothing else. -/
theorem mem_colorLetters_of_isHexColor (h : isHexColor color) : ∀ c ∈ color, c ∈ colorLetters := by
  rw [isHexColor.eq_def] at h
  split at h
  · next digits =>
    simp only [Bool.and_eq_true, List.all_eq_true] at h
    intro c hc
    rcases List.mem_cons.1 hc with rfl | hc
    · exact List.mem_cons_self
    · rcases mem_dropFinalNewline_or hc with hc | rfl
      · exact List.mem_cons_of_mem _ (List.mem_cons_of_mem _ (mem_hexLetters (h.2 c hc)))
      · exact List.mem_cons_of_mem _ List.mem_cons_self
  · cases h

end AnnotatedEquation
