/-
AnnotatedEquation/Proofs/Text/Caseless.lean

Texts that differ in letter case alone.  A character below the capital
letters differs from all others in more than case, and hexadecimal digits
differ in case alone exactly if their small letters are the same.

Main statements: `Text.caselessKey_eq_iff_of_lt`,
`Text.caselessKey_eq_iff_of_isHexDigit` and, for the beginning of a text,
`Text.afterCaseless?_eq_some_iff`.
-/
import AnnotatedEquation.Proofs.Palette.Hex

namespace AnnotatedEquation

variable {c d : Char} {p s r : Text}

namespace Text

/-! ### Characters -/

/-- A class of several characters that differ in case alone has none below
the capital letters. -/
theorem caselessKey_eq_iff_of_lt (hc : c.toNat < 65) : caselessKey d = caselessKey c ↔ d = c := by
  have hruns : ∀ r ∈ caselessRuns, 65 ≤ r.first ∧ 65 ≤ r.first + r.distance := by
    decide +kernel
  have hfind : ∀ code, (∀ r, caselessRuns.find? (·.has code) = some r →
      65 ≤ code ∧ 65 ≤ (code + r.distance).toNat) := by
    intro code r hr
    obtain ⟨hfirst, hdistance⟩ := hruns r (List.mem_of_find?_eq_some hr)
    have hhas : r.has code = true := by simpa using List.find?_some hr
    simp only [CaseRun.has, Bool.and_eq_true, decide_eq_true_eq] at hhas
    omega
  have hkey : caselessKey c = c.toNat := by
    rw [caselessKey, moveBy]
    split
    · next r hr => exact absurd (hfind _ r hr).1 (by omega)
    · rfl
  constructor
  · intro h
    rw [hkey, caselessKey, moveBy] at h
    split at h
    · next r hr =>
      have := (hfind _ r hr).2
      omega
    · exact Char.toNat_inj.1 h
  · rintro rfl
    rfl

theorem caselessKey_eq_iff_of_isHexDigit (hc : isHexDigit c) (hd : isHexDigit d) :
    caselessKey c = caselessKey d ↔ c.toLower = d.toLower := by
  have hall : ∀ c ∈ hexLetters, ∀ d ∈ hexLetters,
      (caselessKey c = caselessKey d ↔ c.toLower = d.toLower) := by decide
  exact hall c (mem_hexLetters hc) d (mem_hexLetters hd)

/-- Nothing but a hexadecimal digit differs from one in case alone. -/
theorem isHexDigit_of_caselessKey_eq (hd : isHexDigit d) (h : caselessKey c = caselessKey d) :
    isHexDigit c := by
  have hall : ∀ d ∈ hexLetters, 48 ≤ caselessKey d ∧ caselessKey d ≤ 57 ∨
      97 ≤ caselessKey d ∧ caselessKey d ≤ 102 := by decide
  have hkey := hall d (mem_hexLetters hd)
  rw [← h, caselessKey, moveBy] at hkey
  rw [isHexDigit_iff]
  -- the capital letters alone move to where the digits are
  have hruns : ∀ r ∈ caselessRuns, r.first = 65 ∧ r.distance = 32 ∨ 103 ≤ r.first + r.distance := by
    decide +kernel
  split at hkey
  · next r hr =>
    have hhas : r.has c.toNat = true := by simpa using List.find?_some hr
    simp only [CaseRun.has, Bool.and_eq_true, decide_eq_true_eq] at hhas
    have hrun := hruns r (List.mem_of_find?_eq_some hr)
    omega
  · omega

/-! ### Beginnings -/

theorem afterCaseless?_eq_some_iff :
    afterCaseless? p s = some r ↔
      ∃ u, s = u ++ r ∧ u.map caselessKey = p.map caselessKey := by
  induction p generalizing s with
  | nil => simp [afterCaseless?, eq_comm]
  | cons a p ih =>
    cases s with
    | nil => simp [afterCaseless?]
    | cons c s =>
      rw [afterCaseless?]
      constructor
      · intro h
        obtain ⟨hkey, h⟩ := Option.ite_none_right_eq_some.1 h
        obtain ⟨u, rfl, hu⟩ := ih.1 h
        exact ⟨c :: u, rfl, by simp [hkey, hu]⟩
      · rintro ⟨u, hs, hu⟩
        rcases u with - | ⟨b, u⟩
        · simp at hu
        · obtain ⟨rfl, rfl⟩ := List.cons.inj hs
          obtain ⟨hkey, hu⟩ := List.cons.inj hu
          rw [if_pos hkey.symm]
          exact ih.2 ⟨u, rfl, hu⟩

@[simp] theorem afterCaseless?_self (p s : Text) : afterCaseless? p (p ++ s) = some s :=
  afterCaseless?_eq_some_iff.2 ⟨p, rfl, rfl⟩

theorem afterCaseless?_append (p q s : Text) :
    afterCaseless? (p ++ q) s = (afterCaseless? p s).bind (afterCaseless? q) := by
  induction p generalizing s with
  | nil => rfl
  | cons a p ih =>
    rcases s with - | ⟨c, s⟩
    · rfl
    · rw [List.cons_append, afterCaseless?, afterCaseless?]
      split
      · exact ih s
      · rfl

/-- **As many digits as there are** are the digits that are looked for if they
differ from them in letter case at most. -/
theorem afterCaseless?_digits_iff (hp : ∀ d ∈ p, isHexDigit d) :
    (afterCaseless? p s = some r ∧ r.head?.any isHexDigit = false) ↔
      p.map Char.toLower = (s.takeWhile isHexDigit).map Char.toLower ∧
        r = s.dropWhile isHexDigit := by
  induction p generalizing s with
  | nil =>
    rcases s with - | ⟨c, s⟩
    · rw [afterCaseless?, Option.some.injEq, List.takeWhile_nil, List.dropWhile_nil,
        and_iff_right rfl]
      exact ⟨fun h => h.1.symm, fun h => ⟨h.symm, by rw [h]; rfl⟩⟩
    · rw [afterCaseless?, Option.some.injEq]
      by_cases hc : isHexDigit c
      · rw [List.takeWhile_cons_of_pos hc]
        refine iff_of_false ?_ (by simp)
        rintro ⟨rfl, hhead⟩
        simp [hc] at hhead
      · rw [List.takeWhile_cons_of_neg hc, List.dropWhile_cons_of_neg hc, and_iff_right rfl]
        constructor
        · rintro ⟨rfl, -⟩
          rfl
        · rintro rfl
          exact ⟨rfl, by simpa using hc⟩
  | cons d p ih =>
    obtain ⟨hd, hp⟩ := List.forall_mem_cons.1 hp
    rcases s with - | ⟨c, s⟩
    · simp [afterCaseless?]
    · rw [afterCaseless?]
      by_cases hc : isHexDigit c
      · rw [List.takeWhile_cons_of_pos hc, List.dropWhile_cons_of_pos hc, List.map_cons, List.map_cons,
          List.cons.injEq, ← caselessKey_eq_iff_of_isHexDigit hd hc, and_assoc, ← ih hp]
        by_cases hkey : caselessKey d = caselessKey c
        · rw [if_pos hkey]
          exact (and_iff_right hkey).symm
        · rw [if_neg hkey]
          exact iff_of_false (by simp) fun h => hkey h.1
      · have hkey : caselessKey d ≠ caselessKey c := fun h =>
          hc (isHexDigit_of_caselessKey_eq hd h.symm)
        rw [if_neg hkey, List.takeWhile_cons_of_neg hc]
        exact iff_of_false (by simp) (by simp)

end Text

end AnnotatedEquation
