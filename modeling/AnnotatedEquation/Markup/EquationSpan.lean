/-
AnnotatedEquation/Markup/EquationSpan.lean

Equation spans: the form in which equations pass from the reader to the
documents.  A piece tagged with a term is the argument of a class command,
`\htmlClass{term-name}{piece}`, and pieces may nest.

A class that does not begin with `term-` is foreign.  Its command is plain
text up to the end of the class name, so that an opening inside a foreign
class name is not looked at.
-/
import AnnotatedEquation.Markup.Delimiter
import AnnotatedEquation.Markup.TagStyle

namespace AnnotatedEquation

namespace EquationSpan

/-- What a class command begins with. -/
def opening : Text := "\\htmlClass\x7b".toList

/-- What the class of a term begins with. -/
def classStart : Text := "term-".toList

/-- A piece tagged with a term. -/
def write (term content : Text) : Text :=
  opening ++ classStart ++ term ++ ['}', '{'] ++ content ++ ['}']

/-- The span, or the foreign class, at the front of a text, and what follows
it. -/
def read? (s : Text) : Option (Run × Text) := do
  let (name, s) ← Text.cutAt? ['}'] (← Text.after? opening s)
  let inner ← Text.after? ['{'] s
  match Text.after? classStart name with
  | none => some (.plain (opening ++ name ++ ['}']), s)
  | some term =>
    let (content, rest) ← Delimiters.braces.content? inner
    some (.tagged term content, rest)

theorem eq_of_read? {s : Text} {run : Run} {rest : Text} (h : read? s = some (run, rest)) :
    s = run.written write ++ rest ∧ run.written write ≠ [] := by
  simp only [read?, Option.bind_eq_bind, Option.bind_eq_some_iff, Prod.exists] at h
  obtain ⟨s₁, h₁, name, s₂, h₂, s₃, h₃, h⟩ := h
  obtain rfl := Text.after?_eq_some_iff.1 h₁
  obtain rfl := Text.eq_of_cutAt? h₂
  obtain rfl := Text.after?_eq_some_iff.1 h₃
  split at h
  · simp only [Option.some.injEq, Prod.mk.injEq] at h
    obtain ⟨rfl, rfl⟩ := h
    simp [Run.written]
  · next term h₄ =>
    simp only [Option.bind_eq_some_iff, Prod.exists, Option.some.injEq, Prod.mk.injEq] at h
    obtain ⟨content, rest', h₅, rfl, rfl⟩ := h
    obtain rfl := Text.after?_eq_some_iff.1 h₄
    obtain rfl := Delimiters.eq_of_content? h₅
    simp [Run.written, write, Delimiters.braces]

end EquationSpan

/-- Tagging by class commands, the form of equations between reader and
documents. -/
def TagStyle.equationSpan : TagStyle where
  write := EquationSpan.write
  read? := EquationSpan.read?
  length_lt_write term content := by
    simp only [EquationSpan.write, List.length_append, List.length_cons]
    omega
  eq_of_read? := EquationSpan.eq_of_read?

/-- The fragments of an equation. -/
def EquationSpan.forest (equation : Text) : List Fragment :=
  TagStyle.equationSpan.forest equation

/-- The equation without its spans, nested ones included. -/
def EquationSpan.strip (equation : Text) : Text :=
  Fragment.writeAll (fun _ content => content) (EquationSpan.forest equation)

end AnnotatedEquation
