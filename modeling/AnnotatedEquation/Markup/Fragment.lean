/-
AnnotatedEquation/Markup/Fragment.lean

Text with terms attached to pieces of it.

* a `Run` is one stretch of a text, plain or tagged with a term, whose
  content is not looked into;
* a `Fragment` is a run whose content is taken apart in turn, so that a list
  of fragments is a forest of tagged pieces.
-/
import AnnotatedEquation.Text.Basic

namespace AnnotatedEquation

/-! ### Runs -/

/-- A stretch of plain text, or a term with the text that it tags. -/
inductive Run where
  | plain (text : Text)
  | tagged (term content : Text)
  deriving DecidableEq, Repr

namespace Run

/-- The run as text, for a writing of tagged pieces. -/
def written (write : Text → Text → Text) : Run → Text
  | plain text => text
  | tagged term content => write term content

/-- The run in front of others; two plain runs become one. -/
def before : Run → List Run → List Run
  | plain text, plain more :: rs => plain (text ++ more) :: rs
  | run, rs => run :: rs

/-- The term of a tagged run. -/
def term? : Run → Option Text
  | plain _ => none
  | tagged term _ => some term

end Run

/-! ### Fragments -/

/-- Plain text, or a term with the fragments that it tags. -/
inductive Fragment where
  | plain (text : Text)
  | tagged (term : Text) (body : List Fragment)
  deriving Repr

namespace Fragment

mutual

/-- The fragment as text, for a writing of tagged pieces. -/
def write (w : Text → Text → Text) : Fragment → Text
  | plain text => text
  | tagged term body => w term (writeAll w body)

/-- A forest as text, for a writing of tagged pieces. -/
def writeAll (w : Text → Text → Text) : List Fragment → Text
  | [] => []
  | f :: fs => write w f ++ writeAll w fs

end

mutual

/-- The terms of a fragment, a term before those inside its piece. -/
def terms : Fragment → List Text
  | plain _ => []
  | tagged term body => term :: termsAll body

/-- The terms of a forest, from left to right, a term before those inside
its piece. -/
def termsAll : List Fragment → List Text
  | [] => []
  | f :: fs => terms f ++ termsAll fs

end

mutual

/-- The terms of a fragment, a term after those inside its piece. -/
def closingTerms : Fragment → List Text
  | plain _ => []
  | tagged term body => closingTermsAll body ++ [term]

/-- The terms of a forest, from left to right, a term after those inside its
piece. -/
def closingTermsAll : List Fragment → List Text
  | [] => []
  | f :: fs => closingTerms f ++ closingTermsAll fs

end

/-! ### Writing that may fail -/

section

variable {ε : Type}

mutual

/-- The fragment as text, where `choose` tells how the pieces of a term are
written, or refuses the term.  A term is looked at before those inside its
piece. -/
def paint (choose : Text → Except ε (Text → Text)) : Fragment → Except ε Text
  | plain text => .ok text
  | tagged term body => do
    let dress ← choose term
    let inner ← paintAll choose body
    return dress inner

/-- A forest as text, where `choose` tells how the pieces of a term are
written, or refuses the term. -/
def paintAll (choose : Text → Except ε (Text → Text)) : List Fragment → Except ε Text
  | [] => .ok []
  | f :: fs => do
    let first ← paint choose f
    let others ← paintAll choose fs
    return first ++ others

end

end

end Fragment

end AnnotatedEquation
