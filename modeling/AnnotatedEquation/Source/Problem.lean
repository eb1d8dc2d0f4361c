/-
AnnotatedEquation/Source/Problem.lean

The cross-check of the three places where a source names its terms: the
marks of the equation, the references of the description, and the headings
of the definitions.  Only which terms occur matters, not where.

* `Problem.errors`: references to unmarked terms, and marked terms without a
  definition;
* `Problem.warnings`: marked terms that the description leaves out, and
  definitions of unmarked terms.
-/
import AnnotatedEquation.Text.Basic

namespace AnnotatedEquation

/-- A disagreement about a term. -/
inductive Problem where
  | referredButUnmarked (term : Text)
  | markedButUndefined (term : Text)
  | markedButUnreferred (term : Text)
  | definedButUnmarked (term : Text)
  deriving DecidableEq, Repr

namespace Problem

private def asMark (term : Text) : Text :=
  "\\mark[".toList ++ term ++ "]\x7b...\x7d".toList

private def asReference (term : Text) : Text :=
  "[...]\x7b.".toList ++ term ++ ['}']

/-- What is said about a problem. -/
def message : Problem → Text
  | referredButUnmarked term =>
    "Term \"".toList ++ term ++ "\" is referenced in the description (".toList
      ++ asReference term ++ ") but never marked in the equation (".toList
      ++ asMark term ++ [')']
  | markedButUndefined term =>
    "Term \"".toList ++ term ++ "\" is marked in the equation (".toList ++ asMark term
      ++ ") but has no definition (## .".toList ++ term ++ [')']
  | markedButUnreferred term =>
    "Term \"".toList ++ term ++ "\" is marked in the equation (".toList ++ asMark term
      ++ ") but never referenced in the description (".toList ++ asReference term ++ [')']
  | definedButUnmarked term =>
    "Definition \"## .".toList ++ term
      ++ "\" does not correspond to any term marked in the equation (".toList
      ++ asMark term ++ [')']

/-- The problems that make a source invalid: first the references to
unmarked terms, each term once, then the marked terms without a
definition. -/
def errors (marked referred defined : List Text) : List Problem :=
  (referred.eraseDups.filter (· ∉ marked)).map referredButUnmarked
    ++ (marked.filter (· ∉ defined)).map markedButUndefined

/-- The problems that leave a source valid: first the marked terms that no
reference names, then the definitions of unmarked terms, each term once. -/
def warnings (marked referred defined : List Text) : List Problem :=
  (marked.filter (· ∉ referred)).map markedButUnreferred
    ++ (defined.eraseDups.filter (· ∉ marked)).map definedButUnmarked

end Problem

end AnnotatedEquation
