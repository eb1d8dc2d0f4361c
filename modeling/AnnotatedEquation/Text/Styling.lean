/-
AnnotatedEquation/Text/Styling.lean

Sequences that style the text of a terminal: an escape character and an
opening bracket, then digits, semicolons and question marks, then a letter.
Lines that are shown to people are shown without them.
-/
import AnnotatedEquation.Text.Basic

namespace AnnotatedEquation.Text

/-- A character that stands inside a style sequence. -/
def isStyleParameter (c : Char) : Bool := ('0' ≤ c && c ≤ '9') || c = ';' || c = '?'

/-- A letter of ASCII, which ends a style sequence. -/
def isStyleEnd (c : Char) : Bool := ('a' ≤ c && c ≤ 'z') || ('A' ≤ c && c ≤ 'Z')

/-- What follows the style sequence at the front of a text. -/
def afterStyle? (s : Text) : Option Text := do
  let body ← after? ['\x1b', '['] s
  match body.dropWhile isStyleParameter with
  | [] => none
  | c :: rest => if isStyleEnd c then some rest else none

theorem length_lt_of_afterStyle? {s rest : Text} (h : afterStyle? s = some rest) :
    rest.length < s.length := by
  simp only [afterStyle?, Option.bind_eq_bind, Option.bind_eq_some_iff] at h
  obtain ⟨body, hbody, h⟩ := h
  rw [after?_eq_some_iff.1 hbody]
  have hle := (List.dropWhile_suffix (l := body) isStyleParameter).length_le
  split at h
  · simp at h
  · next c r hr =>
    split at h
    · simp only [Option.some.injEq] at h
      subst h
      simp only [hr, List.length_cons] at hle
      simp only [List.length_append, List.length_cons, List.length_nil]
      omega
    · simp at h

/-- The text without its style sequences. -/
def unstyled : Text → Text
  | [] => []
  | c :: s =>
    match _h : afterStyle? (c :: s) with
    | some rest => unstyled rest
    | none => c :: unstyled s
termination_by s => s.length
decreasing_by
  · exact length_lt_of_afterStyle? _h
  · simp

end AnnotatedEquation.Text
