/-
AnnotatedEquation/Proofs/Formula/Places.lean

The nodes of a formula, at any depth, each in its place: how a node is written
depends on whether a script or a prime follows it.

* `Node.arguments` are the formulas that a node is built from, and
  `Formula.induction` is the induction that goes through them;
* `Formula.places` are all nodes of a formula in their places;
* `Place.enclosed` are the arguments that are written between delimiters of
  their own.
-/
import AnnotatedEquation.Formula.Typst

namespace AnnotatedEquation

namespace Formula

/-- The formulas that a node is built from. -/
def Node.arguments : Node → List Formula
  | .char _ | .number _ | .prime | .symbol _ | .text _ | .operator _ | .named _ | .layout => []
  | .group body => [body]
  | .script _ argument => [argument]
  | .fraction numerator denominator => [numerator, denominator]
  | .binomial top bottom => [top, bottom]
  | .sqrt radicand => [radicand]
  | .root degree radicand => [degree, radicand]
  | .colored _ body => [body]
  | .classed body => [body]
  | .apply _ argument => [argument]

/-- The induction over a formula, from its front and into the arguments of its
nodes. -/
@[elab_as_elim]
theorem induction {motive : Formula → Prop} (nil : motive [])
    (cons : ∀ (node : Node) (s : Formula), (∀ a ∈ node.arguments, motive a) → motive s →
      motive (node :: s)) : ∀ f, motive f := by
  refine @Node.rec_1 (fun node => ∀ a ∈ node.arguments, motive a) motive ?_ ?_ ?_ ?_ ?_ ?_ ?_ ?_
    ?_ ?_ ?_ ?_ ?_ ?_ ?_ ?_ ?_ nil fun node s => cons node s
  all_goals simp +contextual [Node.arguments]

/-- A node in its place: whether a script or a prime follows it. -/
structure Place where
  node : Node
  scripted : Bool

/-- The arguments that are written between delimiters of their own. -/
def Place.enclosed (place : Place) : List Formula :=
  match place.node with
  | .group body => if place.scripted then [body] else []
  | .classed _ => []
  | node => node.arguments

mutual

/-- A node in its place, and all places in its arguments. -/
def Node.places (scripted : Bool) (node : Node) : List Place :=
  ⟨node, scripted⟩ ::
    match node with
    | .group body | .script _ body | .sqrt body | .colored _ body | .classed body
    | .apply _ body => places body
    | .fraction first second | .binomial first second | .root first second =>
      places first ++ places second
    | .char _ | .number _ | .prime | .symbol _ | .text _ | .operator _ | .named _ | .layout => []

/-- All nodes of a formula, at any depth, in their places. -/
def places : Formula → List Place
  | [] => []
  | node :: s => node.places (scriptFollows s) ++ places s

end

variable {node : Node} {s : Formula} {place : Place} {scripted : Bool}

theorem Node.mem_places :
    place ∈ node.places scripted ↔
      place = ⟨node, scripted⟩ ∨ ∃ a ∈ node.arguments, place ∈ Formula.places a := by
  cases node <;> simp [Node.places, Node.arguments]

theorem mem_places_cons :
    place ∈ places (node :: s) ↔
      place = ⟨node, scriptFollows s⟩ ∨ (∃ a ∈ node.arguments, place ∈ places a) ∨
        place ∈ places s := by
  rw [places, List.mem_append, Node.mem_places, or_assoc]

/-- What holds in all places of a formula holds at its front, in the arguments
that stand there, and behind it. -/
theorem forall_mem_places_cons {P : Place → Prop} :
    (∀ p ∈ places (node :: s), P p) ↔
      P ⟨node, scriptFollows s⟩ ∧ (∀ a ∈ node.arguments, ∀ p ∈ places a, P p) ∧
        ∀ p ∈ places s, P p := by
  simp only [mem_places_cons, or_imp, forall_and, forall_eq]
  refine and_congr_right fun _ => and_congr_left fun _ => ?_
  exact ⟨fun h a ha p hp => h p ⟨a, ha, hp⟩, fun h p ⟨a, ha, hp⟩ => h a ha p hp⟩

end Formula

end AnnotatedEquation
