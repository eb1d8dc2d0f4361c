/-
AnnotatedEquation/Files/Path.lean

Paths of files, in normal form: empty components and components that are a
single dot are dropped, and those that are two dots stay.
-/
import AnnotatedEquation.Text.Basic

namespace AnnotatedEquation

/-- A path in normal form: what stands before the first component, and the
components. -/
structure Path where
  root : Text
  parts : List Text
  deriving DecidableEq, Repr

namespace Path

/-- The components of a path as it is written, dots and empty ones
included. -/
def components (s : Text) : List Text := s.splitOn '/'

/-- A component that leads on to another place. -/
def isStep (part : Text) : Bool := part ≠ [] && part ≠ ['.']

/-- The root of a path as it is written.  Exactly two slashes in front are a
root of their own. -/
def rootOf : Text → Text
  | '/' :: '/' :: '/' :: _ => ['/']
  | '/' :: '/' :: _ => ['/', '/']
  | '/' :: _ => ['/']
  | _ => []

/-- The path that a text writes. -/
def ofText (s : Text) : Path := ⟨rootOf s, (components s).filter isStep⟩

/-- The path as text. -/
def text (p : Path) : Text :=
  if p.root = [] ∧ p.parts = [] then ['.'] else p.root ++ Text.joinWith ['/'] p.parts

/-- The last component. -/
def name (p : Path) : Text := p.parts.getLast?.getD []

/-- The name without its last ending: what stands before the last dot, if
characters stand on both sides of it. -/
def stem (p : Path) : Text :=
  let ending := p.name.reverse.takeWhile (· ≠ '.')
  match p.name.reverse.dropWhile (· ≠ '.') with
  | '.' :: front => if front = [] ∨ ending = [] then p.name else front.reverse
  | _ => p.name

/-- The path with another last component. -/
def withName (p : Path) (name : Text) : Path := { p with parts := p.parts.dropLast ++ [name] }

/-- The path of an entry of the directory. -/
def entry (p : Path) (name : Text) : Path := { p with parts := p.parts ++ [name] }

end Path

end AnnotatedEquation
