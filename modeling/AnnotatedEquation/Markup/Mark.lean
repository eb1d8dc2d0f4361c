/-
AnnotatedEquation/Markup/Mark.lean

Marks: the author tags a piece of an equation with a term by writing
`\mark[term]{piece}`.  The term's name is not empty and holds no bracket and
no brace; pieces may hold further marks.  Whatever does not fit is plain
text.
-/
import AnnotatedEquation.Markup.Delimiter
import AnnotatedEquation.Markup.TagStyle

namespace AnnotatedEquation

namespace Mark

/-- What a mark begins with. -/
def opening : Text := "\\mark[".toList

/-- A piece tagged with a term, as the author writes it. -/
def write (term content : Text) : Text :=
  opening ++ term ++ [']', '{'] ++ content ++ ['}']

/-- A name that a mark may give to a term.  (A closing bracket cannot get
into a name, as the name ends there.) -/
def isName (name : Text) : Bool :=
  name ≠ [] && name.all (· ∉ ['[', '{', '}'])

/-- The mark at the front of a text, and what follows it. -/
def read? (s : Text) : Option (Run × Text) := do
  let (name, s) ← Text.cutAt? [']'] (← Text.after? opening s)
  if isName name then
    let (content, rest) ← Delimiters.braces.content? (← Text.after? ['{'] s)
    some (.tagged name content, rest)
  else
    none

theorem eq_of_read? {s : Text} {run : Run} {rest : Text} (h : read? s = some (run, rest)) :
    s = run.written write ++ rest ∧ run.written write ≠ [] := by
  simp only [read?, Option.bind_eq_bind, Option.bind_eq_some_iff, Prod.exists] at h
  obtain ⟨s₁, h₁, name, s₂, h₂, h⟩ := h
  split at h
  · simp only [Option.bind_eq_some_iff, Prod.exists, Option.some.injEq, Prod.mk.injEq] at h
    obtain ⟨s₃, h₃, content, rest', h₄, rfl, rfl⟩ := h
    obtain rfl := Text.after?_eq_some_iff.1 h₁
    obtain rfl := Text.eq_of_cutAt? h₂
    obtain rfl := Text.after?_eq_some_iff.1 h₃
    obtain rfl := Delimiters.eq_of_content? h₄
    simp [Run.written, write, Delimiters.braces]
  · simp at h

end Mark

/-- Tagging by marks, the author's way in equations. -/
def TagStyle.mark : TagStyle where
  write := Mark.write
  read? := Mark.read?
  length_lt_write term content := by
    simp only [Mark.write, List.length_append, List.length_cons]
    omega
  eq_of_read? := Mark.eq_of_read?

end AnnotatedEquation
