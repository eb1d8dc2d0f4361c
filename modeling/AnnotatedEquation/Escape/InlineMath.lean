/-
AnnotatedEquation/Escape/InlineMath.lean

Prose with inline math between dollar signs.  A dollar sign that stands
directly behind a backslash is text; the others are paired off from the
left, and a last one without a partner is text as well.

* `InlineMath.read` takes a text apart into what stands outside math and
  what stands inside;
* `InlineMath.render` and `InlineMath.renderM` put it together again, each
  kind of piece in a writing of its own.

Main statement: reading loses nothing (`InlineMath.source_read`).
-/
import AnnotatedEquation.Text.Basic

namespace AnnotatedEquation

/-- Text with pieces of math in it, each followed by more text. -/
structure InlineMath where
  first : Text
  rest : List (Text × Text)
  deriving DecidableEq, Repr

namespace InlineMath

/-- The pieces of a text between its dollar signs, those behind a backslash
aside; `escaped` tells that a backslash stands before the text. -/
def split (escaped : Bool) : Text → Text × List Text
  | [] => ([], [])
  | c :: s =>
    let (piece, pieces) := split (c = '\\') s
    if c = '$' ∧ ¬ escaped then ([], piece :: pieces) else (c :: piece, pieces)

/-- Pairs off the dollar signs between the pieces. -/
def pairOff (first : Text) : List Text → InlineMath
  | [] => ⟨first, []⟩
  | [last] => ⟨first ++ '$' :: last, []⟩
  | math :: text :: pieces =>
    let more := pairOff text pieces
    ⟨first, (math, more.first) :: more.rest⟩

/-- Takes a text apart. -/
def read (s : Text) : InlineMath :=
  let (first, pieces) := split false s
  pairOff first pieces

/-- Math between dollar signs. -/
def delimited (math : Text) : Text := '$' :: math ++ ['$']

/-- The text and the math, each in its writing. -/
def render (writeText writeMath : Text → Text) (p : InlineMath) : Text :=
  writeText p.first ++ p.rest.flatMap fun (math, text) => writeMath math ++ writeText text

/-- The text and the math, each in its writing, where math may be refused. -/
def renderM {ε : Type} (writeText : Text → Text) (writeMath : Text → Except ε Text)
    (p : InlineMath) : Except ε Text := do
  let rest ← p.rest.mapM fun (math, text) => do
    return (← writeMath math) ++ writeText text
  return writeText p.first ++ rest.flatten

/-- The text that was taken apart. -/
def source (p : InlineMath) : Text := p.render id delimited

theorem source_pairOff (first : Text) (pieces : List Text) :
    (pairOff first pieces).source = first ++ pieces.flatMap ('$' :: ·) := by
  fun_induction pairOff first pieces with
  | case1 first => simp [source, render]
  | case2 first last => simp [source, render]
  | case3 first math text pieces more ih =>
    simp only [source, render, id_eq, List.flatMap_cons, delimited] at ih ⊢
    have : more.first ++ List.flatMap (fun x => '$' :: x.1 ++ ['$'] ++ x.2) more.rest
        = text ++ List.flatMap ('$' :: ·) pieces := ih
    simp only [List.append_assoc, List.cons_append, List.nil_append] at this ⊢
    rw [this]

theorem join_split (escaped : Bool) (s : Text) :
    (split escaped s).1 ++ (split escaped s).2.flatMap ('$' :: ·) = s := by
  induction s generalizing escaped with
  | nil => rfl
  | cons c s ih =>
    have := ih (c = '\\')
    by_cases h : c = '$' ∧ ¬ escaped
    · simp only [split, h]
      simpa [h.1] using this
    · simp only [split, h, if_false, List.cons_append]
      simpa using this

/-- Reading loses nothing. -/
theorem source_read (s : Text) : (read s).source = s := by
  rw [read, source_pairOff, join_split]

end InlineMath

end AnnotatedEquation
