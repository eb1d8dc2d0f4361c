/-
AnnotatedEquation/Interaction.lean

Hover and click state of an interactive viewer.  At most one term is active:
the pinned one if there is one, else the one under the pointer.  A click
pins a term, and a click on the pinned term releases it.
-/
import AnnotatedEquation.Text.Basic

namespace AnnotatedEquation

/-- Why a term is active. -/
inductive Activity where
  | none
  | hovered
  | clicked
  deriving DecidableEq, Repr

/-- The state of a viewer. -/
structure Interaction where
  activity : Activity := .none
  term : Option Text := Option.none
  pinned : Option Text := Option.none
  deriving DecidableEq, Repr

/-- What the reader of a page does. -/
inductive Gesture where
  | hover (term : Text)
  | unhover
  | click (term : Text)
  | clear
  deriving DecidableEq, Repr

namespace Interaction

/-- Nothing is active. -/
def idle : Interaction := {}

/-- The active term. -/
def active (s : Interaction) : Option Text :=
  if s.activity = .none then none else s.term

/-- The state with nothing under the pointer. -/
def settled : Option Text → Interaction
  | none => idle
  | some term => { activity := .clicked, term := some term, pinned := some term }

/-- The state after a gesture. -/
def step (s : Interaction) : Gesture → Interaction
  | .hover term =>
    if s.pinned.isSome then s
    else { activity := .hovered, term := some term, pinned := none }
  | .unhover => settled s.pinned
  | .click term => if s.pinned = some term then idle else settled (some term)
  | .clear => idle

/-- The state after some gestures. -/
def run (s : Interaction) (gestures : List Gesture) : Interaction := gestures.foldl step s

/-- The states on the way through some gestures, the first one included. -/
def trace (s : Interaction) : List Gesture → List Interaction
  | [] => [s]
  | g :: gs => s :: trace (s.step g) gs

end Interaction

end AnnotatedEquation
