/-
AnnotatedEquation/Text/CodeRanges.lean

Character classes given as ranges of code points.

Main statement: two tables of which every range lies apart have no
character in common (`CodeRanges.has_eq_false_of_apart`).
-/

namespace AnnotatedEquation.Text

/-- Ranges of code points, both ends included. -/
abbrev CodeRanges := List (Nat × Nat)

namespace CodeRanges

/-- The character lies in one of the ranges. -/
def has (rs : CodeRanges) (c : Char) : Bool :=
  rs.any fun r => r.1 ≤ c.toNat && c.toNat ≤ r.2

/-- No range of one table meets a range of the other. -/
def apart (rs ts : CodeRanges) : Bool :=
  rs.all fun r => ts.all fun t => r.2 < t.1 || t.2 < r.1

theorem has_iff {rs : CodeRanges} {c : Char} :
    rs.has c ↔ ∃ r ∈ rs, r.1 ≤ c.toNat ∧ c.toNat ≤ r.2 := by
  simp [has]

theorem has_eq_false_of_apart {rs ts : CodeRanges} {c : Char} (h : rs.apart ts)
    (hc : rs.has c) : ts.has c = false := by
  obtain ⟨r, hr, hrc⟩ := has_iff.1 hc
  rw [Bool.eq_false_iff]
  intro ht
  obtain ⟨t, hts, htc⟩ := has_iff.1 ht
  have := List.all_eq_true.1 (List.all_eq_true.1 h r hr) t hts
  simp only [Bool.or_eq_true, decide_eq_true_eq] at this
  omega

end CodeRanges

end AnnotatedEquation.Text
