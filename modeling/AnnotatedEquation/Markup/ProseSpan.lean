/-
AnnotatedEquation/Markup/ProseSpan.lean

Prose spans: the form in which descriptions pass from the reader to the
documents.  A term and the text displayed for it are written
`<span class="term-name">text</span>`; the name holds no quote and no `>`,
and the text ends at the first closing tag, so that spans do not nest.
Whatever does not fit is plain text.
-/
import AnnotatedEquation.Markup.TagStyle

namespace AnnotatedEquation

namespace ProseSpan

/-- What a span begins with. -/
def opening : Text := "<span class=\"term-".toList

/-- What stands between the name and the text. -/
def middle : Text := ['"', '>']

/-- What ends a span. -/
def closing : Text := "</span>".toList

/-- A character that a name may hold. -/
def isNameChar (c : Char) : Bool := c ≠ '"' && c ≠ '>'

/-- A term with the text displayed for it. -/
def write (term text : Text) : Text :=
  opening ++ term ++ middle ++ text ++ closing

/-- The span at the front of a text, and what follows it. -/
def read? (s : Text) : Option (Run × Text) := do
  let s ← Text.after? opening s
  let (text, rest) ← Text.cutAt? closing (← Text.after? middle (s.dropWhile isNameChar))
  some (.tagged (s.takeWhile isNameChar) text, rest)

theorem eq_of_read? {s : Text} {run : Run} {rest : Text} (h : read? s = some (run, rest)) :
    s = run.written write ++ rest ∧ run.written write ≠ [] := by
  simp only [read?, Option.bind_eq_bind, Option.bind_eq_some_iff, Prod.exists, Option.some.injEq,
    Prod.mk.injEq] at h
  obtain ⟨s₁, h₁, s₂, h₂, text, s₃, h₃, rfl, rfl⟩ := h
  obtain rfl := Text.after?_eq_some_iff.1 h₁
  obtain rfl := Text.eq_of_cutAt? h₃
  have h₄ := List.takeWhile_append_dropWhile (p := isNameChar) (l := s₁)
  rw [Text.after?_eq_some_iff.1 h₂] at h₄
  refine ⟨?_, by simp [Run.written, write, middle]⟩
  conv => lhs; rw [← h₄]
  simp [Run.written, write]

end ProseSpan

/-- Tagging by spans, the form of descriptions between reader and
documents. -/
def TagStyle.proseSpan : TagStyle where
  write := ProseSpan.write
  read? := ProseSpan.read?
  length_lt_write term text := by
    simp only [ProseSpan.write, ProseSpan.middle, List.length_append, List.length_cons]
    omega
  eq_of_read? := ProseSpan.eq_of_read?

end AnnotatedEquation
