/-
AnnotatedEquation/Markup/Reference.lean

References: the author refers from prose to a term by writing
`[displayed text]{.term}`.  The displayed text is not empty and ends at the
first closing bracket; the term is not empty and ends at the first closing
brace.  Whatever does not fit is plain text.
-/
import AnnotatedEquation.Markup.TagStyle

namespace AnnotatedEquation

namespace Reference

/-- A reference to a term, as the author writes it. -/
def write (term display : Text) : Text :=
  ['['] ++ display ++ [']', '{', '.'] ++ term ++ ['}']

/-- The reference at the front of a text, and what follows it. -/
def read? (s : Text) : Option (Run × Text) := do
  let (display, s) ← Text.cutAt? [']'] (← Text.after? ['['] s)
  let (term, rest) ← Text.cutAt? ['}'] (← Text.after? ['{', '.'] s)
  if display = [] ∨ term = [] then none else some (.tagged term display, rest)

theorem eq_of_read? {s : Text} {run : Run} {rest : Text} (h : read? s = some (run, rest)) :
    s = run.written write ++ rest ∧ run.written write ≠ [] := by
  simp only [read?, Option.bind_eq_bind, Option.bind_eq_some_iff, Prod.exists] at h
  obtain ⟨s₁, h₁, display, s₂, h₂, s₃, h₃, term, s₄, h₄, h⟩ := h
  split at h
  · simp at h
  · simp only [Option.some.injEq, Prod.mk.injEq] at h
    obtain ⟨rfl, rfl⟩ := h
    obtain rfl := Text.after?_eq_some_iff.1 h₁
    obtain rfl := Text.eq_of_cutAt? h₂
    obtain rfl := Text.after?_eq_some_iff.1 h₃
    obtain rfl := Text.eq_of_cutAt? h₄
    simp [Run.written, write]

end Reference

/-- Tagging by references, the author's way in prose. -/
def TagStyle.reference : TagStyle where
  write := Reference.write
  read? := Reference.read?
  length_lt_write term display := by
    simp only [Reference.write, List.length_append, List.length_cons]
    omega
  eq_of_read? := Reference.eq_of_read?

end AnnotatedEquation
