/-
AnnotatedEquation/Proofs/Text/Position.lean

Positions in a text: where a pattern occurs next, and the stretch of a text
between two positions.

Main statements: `find?` gives the first position at or behind another at
which the pattern stands (`find?_eq_some_iff`, `find?_eq_none_iff`), and the
text splits at every stretch of it (`extract_append_drop`).
-/
import AnnotatedEquation.Proofs.Text.Occurrence
import Mathlib.Data.Nat.Find

namespace AnnotatedEquation.Text

variable {p s t u v : Text} {i j k pos : Nat}

/-! ### The next occurrence -/

/-- The first position at or behind `pos` at which the pattern stands. -/
def find? (p s : Text) (pos : Nat) : Option Nat :=
  (cutAt? p (s.drop pos)).map fun (before, _) => pos + before.length

@[simp] theorem find?_nil (s : Text) (pos : Nat) : find? [] s pos = some pos := by
  rcases h : s.drop pos with - | ⟨c, t⟩ <;> simp [find?, cutAt?, after?, h]

theorem lt_length_of_prefix_drop (hp : p ≠ []) (h : p <+: s.drop i) : i < s.length := by
  by_contra hi
  rw [List.drop_eq_nil_of_le (Nat.le_of_not_lt hi), List.prefix_nil] at h
  exact hp h

theorem find?_eq_some_iff (hp : p ≠ []) :
    find? p s pos = some i ↔
      (pos ≤ i ∧ p <+: s.drop i) ∧ ∀ j, pos ≤ j → j < i → ¬ p <+: s.drop j := by
  simp only [find?, Option.map_eq_some_iff, Prod.exists]
  constructor
  · rintro ⟨u, v, hcut, rfl⟩
    obtain ⟨hs, hu⟩ := (cutAt?_eq_some_iff hp).1 hcut
    have hdrop : ∀ k, k ≤ u.length → s.drop (pos + k) = u.drop k ++ (p ++ v) := by
      intro k hk
      rw [← List.drop_drop, hs, List.drop_append_of_le_length hk]
    refine ⟨⟨Nat.le_add_right .., ?_⟩, fun j hj hlt hin => ?_⟩
    · rw [hdrop _ (Nat.le_refl _)]
      simp
    · obtain ⟨k, rfl⟩ := Nat.exists_eq_add_of_le hj
      rw [hdrop k (by omega)] at hin
      exact hu _ (List.drop_suffix k u) (by simp; omega) hin
  · rintro ⟨⟨hle, v, hv⟩, hfirst⟩
    obtain ⟨k, rfl⟩ := Nat.exists_eq_add_of_le hle
    have hlength := lt_length_of_prefix_drop hp ⟨v, hv⟩
    have hsplit : s.drop pos = (s.drop pos).take k ++ (p ++ v) := by
      rw [hv, ← List.drop_drop, List.take_append_drop]
    have hk : ((s.drop pos).take k).length = k := by simp; omega
    refine ⟨(s.drop pos).take k, v, (cutAt?_eq_some_iff hp).2 ⟨hsplit, fun w hw hne hin => ?_⟩,
      by rw [hk]⟩
    -- what is left of the text in front is what stands at some position before `i`
    obtain ⟨front, hfront⟩ := hw
    have hw : 0 < w.length := List.length_pos_iff.2 hne
    have hsum : front.length + w.length = k := by rw [← hk, ← hfront, List.length_append]
    have hdrop : s.drop (pos + front.length) = w ++ (p ++ v) := by
      rw [← List.drop_drop, hsplit, ← hfront, List.append_assoc]
      simp
    exact hfirst (pos + front.length) (by omega) (by omega) (hdrop ▸ hin)

theorem find?_eq_none_iff (hp : p ≠ []) :
    find? p s pos = none ↔ ∀ i, pos ≤ i → ¬ p <+: s.drop i := by
  constructor
  · intro h i hi hin
    -- of all such positions there is a first one
    have hex : ∃ i, pos ≤ i ∧ p <+: s.drop i := ⟨i, hi, hin⟩
    classical
    have hfirst := (find?_eq_some_iff hp).2 ⟨Nat.find_spec hex, fun j hj hlt hjin =>
      Nat.find_min hex hlt ⟨hj, hjin⟩⟩
    rw [h] at hfirst
    cases hfirst
  · intro h
    rcases hfind : find? p s pos with - | i
    · rfl
    · obtain ⟨⟨hi, hin⟩, -⟩ := (find?_eq_some_iff hp).1 hfind
      exact absurd hin (h i hi)

/-! ### Stretches -/

theorem extract_append_drop (h : i ≤ j) : s.extract i j ++ s.drop j = s.drop i := by
  have hj : s.drop j = (s.drop i).drop (j - i) := by
    rw [List.drop_drop, Nat.add_sub_of_le h]
  rw [hj, List.extract, List.take_append_drop]

theorem extract_append_extract (hij : i ≤ j) (hjk : j ≤ k) :
    s.extract i j ++ s.extract j k = s.extract i k := by
  have hj : s.drop j = (s.drop i).drop (j - i) := by
    rw [List.drop_drop, Nat.add_sub_of_le hij]
  rw [List.extract, List.extract, List.extract, hj, ← List.take_add]
  congr 1
  omega

theorem length_extract (hj : j ≤ s.length) : (s.extract i j).length = j - i := by
  simp only [List.extract, List.length_take, List.length_drop]
  omega

/-- A stretch that is not empty ends in the character before its end. -/
theorem getLast?_extract (hij : i < j) (hj : j ≤ s.length) :
    (s.extract i j).getLast? = s[j - 1]? := by
  have hlast : i + (j - i - 1) = j - 1 := by omega
  rw [List.getLast?_eq_getElem?, length_extract hj, List.extract, List.getElem?_take_of_lt (by omega),
    List.getElem?_drop, hlast]

theorem extract_eq_nil_iff (hi : j ≤ s.length) : s.extract i j = [] ↔ j ≤ i := by
  rw [List.extract, List.take_eq_nil_iff, List.drop_eq_nil_iff]
  omega

/-- What stands at a position, as the stretch there and the text behind. -/
theorem eq_of_drop_eq_append (h : s.drop i = u ++ v) :
    s.extract i (i + u.length) = u ∧ s.drop (i + u.length) = v := by
  constructor
  · rw [List.extract, h, Nat.add_sub_cancel_left]
    simp
  · rw [← List.drop_drop, h]
    simp

/-! ### Stretches up to the next occurrence -/

theorem exists_of_find? (h : find? p s pos = some i) :
    ∃ u v, s.drop pos = u ++ (p ++ v) ∧ pos + u.length = i := by
  obtain ⟨⟨u, v⟩, hcut, hi⟩ := Option.map_eq_some_iff.1 h
  exact ⟨u, v, by rw [eq_of_cutAt? hcut, List.append_assoc], hi⟩

theorem le_of_find? (h : find? p s pos = some i) : pos ≤ i := by
  obtain ⟨u, v, -, rfl⟩ := exists_of_find? h
  exact Nat.le_add_right ..

/-- The text up to the next occurrence of a pattern, and what follows it. -/
theorem eq_of_find? (h : find? p s pos = some i) :
    s.drop pos = s.extract pos i ++ (p ++ s.drop (i + p.length)) := by
  obtain ⟨u, v, hs, rfl⟩ := exists_of_find? h
  obtain ⟨hextract, hdrop⟩ := eq_of_drop_eq_append hs
  have hrest := (eq_of_drop_eq_append hdrop).2
  rw [hextract, hrest, hs]

theorem prefix_of_find? (h : find? p s pos = some i) : p <+: s.drop i := by
  obtain ⟨u, v, hs, rfl⟩ := exists_of_find? h
  exact ⟨v, (eq_of_drop_eq_append hs).2.symm⟩

theorem lt_length_of_find? (hp : p ≠ []) (h : find? p s pos = some i) : i < s.length :=
  lt_length_of_prefix_drop hp (prefix_of_find? h)

/-- The next occurrence is no later than any that is known. -/
theorem find?_le_of_prefix (h : find? p s pos = some i) (hj : pos ≤ j) (hin : p <+: s.drop j) :
    i ≤ j := by
  by_cases hp : p = []
  · subst hp
    exact Option.some.inj (h.symm.trans (find?_nil s pos)) ▸ hj
  · by_contra hlt
    exact ((find?_eq_some_iff hp).1 h).2 j hj (by omega) hin

theorem not_prefix_of_find?_eq_none (h : find? p s pos = none) (hj : pos ≤ j) :
    ¬ p <+: s.drop j := by
  by_cases hp : p = []
  · subst hp
    cases h.symm.trans (find?_nil s pos)
  · exact (find?_eq_none_iff hp).1 h j hj

/-- The text up to the next occurrence of a character holds it nowhere. -/
theorem eq_of_find?_singleton {c : Char} (h : find? [c] s pos = some i) :
    s.drop pos = s.extract pos i ++ c :: s.drop (i + 1) ∧ c ∉ s.extract pos i := by
  refine ⟨eq_of_find? h, ?_⟩
  obtain ⟨⟨u, v⟩, hcut, hi⟩ := Option.map_eq_some_iff.1 h
  obtain rfl : pos + u.length = i := hi
  obtain ⟨hs, hu⟩ := cutAt?_singleton_eq_some_iff.1 hcut
  rw [(eq_of_drop_eq_append hs).1]
  exact hu

theorem find?_singleton_of_drop {c : Char} (h : s.drop pos = u ++ c :: v) (hc : c ∉ u) :
    find? [c] s pos = some (pos + u.length) := by
  rw [find?, cutAt?_singleton_eq_some_iff.2 ⟨h, hc⟩]
  rfl

end AnnotatedEquation.Text
