/-
AnnotatedEquation/Proofs/Interaction.lean

Runs of an interactive viewer.  Two things go on in a viewer that do not know
of each other: clicks and clears move the pin, and every gesture brings a term
under the pointer or takes it away.  A state shows the pin if there is one, and
what is under the pointer otherwise.

* `Interaction.pinnedBy` is the pin that the clicks and clears of some gestures
  leave, and `Interaction.sincePinning` are the gestures behind the last of
  these;
* `Interaction.shown` is the state for a pin and a pointer.

Main statements: a step moves the pin and the pointer, each on its own
(`Interaction.step_shown`), so that a run shows the pin of its clicks and
clears and the pointer of its last gesture (`Interaction.run_eq_shown`,
`Interaction.run_shows_pin_or_pointer`).
-/
import AnnotatedEquation.Interaction
import Mathlib.Data.List.DropRight

namespace AnnotatedEquation

variable {gestures : List Gesture} {g : Gesture} {pin pointer : Option Text} {term : Text}

/-! ### Gestures -/

namespace Gesture

/-- The gesture is a click or a clear. -/
def isPinning : Gesture → Bool
  | click _ | clear => true
  | hover _ | unhover => false

/-- The term that the gesture leaves under the pointer. -/
def pointed? : Gesture → Option Text
  | hover term => some term
  | unhover | click _ | clear => none

theorem pointed?_of_isPinning (h : g.isPinning) : g.pointed? = none := by
  cases g with
  | hover term => cases h
  | unhover => cases h
  | click term => rfl
  | clear => rfl

end Gesture

namespace Interaction

/-! ### The pin and the pointer -/

/-- The pin after a gesture. -/
def pinAfter (pin : Option Text) : Gesture → Option Text
  | .click term => if pin = some term then none else some term
  | .clear => none
  | .hover _ | .unhover => pin

/-- The pin that the clicks and clears among some gestures leave, if nothing is
pinned before. -/
def pinnedBy (gestures : List Gesture) : Option Text :=
  (gestures.filter Gesture.isPinning).foldl pinAfter none

/-- The gestures behind the last click or clear. -/
def sincePinning (gestures : List Gesture) : List Gesture :=
  gestures.rtakeWhile fun g => !g.isPinning

/-- The last hover among some gestures is over the term, and no unhover
follows it. -/
def PointsAt (gestures : List Gesture) (term : Text) : Prop :=
  ∃ front back, gestures = front ++ .hover term :: back ∧
    (∀ other, .hover other ∉ back) ∧ .unhover ∉ back

/-- The state with a term under the pointer and nothing pinned. -/
def pointed (term : Text) : Interaction :=
  { activity := .hovered, term := some term, pinned := none }

/-- The state with a term pinned. -/
def pinnedTo (term : Text) : Interaction :=
  { activity := .clicked, term := some term, pinned := some term }

/-- The state for a pin and a pointer: the pin is shown if there is one. -/
def shown (pin pointer : Option Text) : Interaction :=
  match pin, pointer with
  | some term, _ => pinnedTo term
  | none, some term => pointed term
  | none, none => idle

theorem pinned_shown (pin pointer : Option Text) : (shown pin pointer).pinned = pin := by
  rcases pin with - | term
  · rcases pointer with - | other <;> rfl
  · rfl

theorem settled_eq_shown (pin : Option Text) : settled pin = shown pin none := by
  rcases pin with - | term <;> rfl

/-- **A step moves the pin and the pointer**, each without regard to the
other, and whatever was under the pointer before is forgotten. -/
theorem step_shown (pin pointer : Option Text) (g : Gesture) :
    (shown pin pointer).step g = shown (pinAfter pin g) g.pointed? := by
  cases g with
  | hover term =>
    rcases pin with - | other
    · rcases pointer with - | other <;> rfl
    · rfl
  | unhover =>
    show settled (shown pin pointer).pinned = _
    rw [pinned_shown, settled_eq_shown]
    rfl
  | click term =>
    show (if (shown pin pointer).pinned = some term then idle else settled (some term)) = _
    rw [pinned_shown]
    by_cases h : pin = some term
    · rw [if_pos h, pinAfter, if_pos h]
      rfl
    · rw [if_neg h, pinAfter, if_neg h]
      rfl
  | clear => rfl

/-! ### One more gesture -/

theorem run_concat (s : Interaction) (gestures : List Gesture) (g : Gesture) :
    run s (gestures ++ [g]) = (run s gestures).step g :=
  List.foldl_concat ..

/-- Hovers and unhovers leave the pin alone. -/
theorem pinAfter_of_not_isPinning (h : ¬ g.isPinning) (pin : Option Text) : pinAfter pin g = pin := by
  cases g with
  | hover term => rfl
  | unhover => rfl
  | click term => exact absurd rfl h
  | clear => exact absurd rfl h

theorem pinnedBy_concat (gestures : List Gesture) (g : Gesture) :
    pinnedBy (gestures ++ [g]) = pinAfter (pinnedBy gestures) g := by
  rw [pinnedBy, List.filter_append]
  by_cases h : g.isPinning
  · rw [List.filter_cons_of_pos h, List.filter_nil, List.foldl_concat]
    rfl
  · rw [List.filter_cons_of_neg h, List.filter_nil, List.append_nil, pinAfter_of_not_isPinning h]
    rfl

theorem sincePinning_concat (gestures : List Gesture) (g : Gesture) :
    sincePinning (gestures ++ [g]) = if g.isPinning then [] else sincePinning gestures ++ [g] := by
  rw [sincePinning, List.rtakeWhile_concat]
  by_cases h : g.isPinning <;> simp [h, sincePinning]

/-! ### Runs -/

/-- **A run shows the pin of its clicks and clears, and the pointer of its last
gesture.** -/
theorem run_eq_shown (gestures : List Gesture) :
    run idle gestures = shown (pinnedBy gestures) (gestures.getLast?.bind Gesture.pointed?) := by
  induction gestures using List.reverseRecOn with
  | nil => rfl
  | append_singleton gestures g ih =>
    rw [run_concat, ih, step_shown, pinnedBy_concat, List.getLast?_concat, Option.bind_some]

/-- What is under the pointer is told by the gestures behind the last click or
clear. -/
theorem getLast?_sincePinning (gestures : List Gesture) :
    (sincePinning gestures).getLast?.bind Gesture.pointed? =
      gestures.getLast?.bind Gesture.pointed? := by
  induction gestures using List.reverseRecOn with
  | nil => rfl
  | append_singleton gestures g ih =>
    rw [sincePinning_concat, List.getLast?_concat]
    by_cases h : g.isPinning
    · rw [if_pos h, Option.bind_some, Gesture.pointed?_of_isPinning h]
      rfl
    · rw [if_neg h, List.getLast?_concat]

/-- Among hovers and unhovers alone, a hover that neither follows is the
last gesture. -/
theorem pointsAt_iff (h : ∀ g ∈ gestures, ¬ g.isPinning) :
    PointsAt gestures term ↔ gestures.getLast?.bind Gesture.pointed? = some term := by
  constructor
  · rintro ⟨front, back, rfl, hhover, hunhover⟩
    -- anything behind the hover would be a hover or an unhover
    have hback : back = [] := by
      rw [List.eq_nil_iff_forall_not_mem]
      intro g hg
      have hpin := h g (List.mem_append_right _ (List.mem_cons_of_mem _ hg))
      cases g with
      | hover other => exact hhover other hg
      | unhover => exact hunhover hg
      | click other => exact hpin rfl
      | clear => exact hpin rfl
    rw [hback, List.getLast?_concat]
    rfl
  · intro hlast
    obtain ⟨g, hg, hterm⟩ := Option.bind_eq_some_iff.1 hlast
    obtain ⟨front, rfl⟩ := List.getLast?_eq_some_iff.1 hg
    cases g with
    | hover other =>
      obtain rfl := Option.some.inj hterm
      exact ⟨front, [], rfl, fun _ => List.not_mem_nil, List.not_mem_nil⟩
    | unhover => cases hterm
    | click other => cases hterm
    | clear => cases hterm

theorem pointsAt_sincePinning_iff :
    PointsAt (sincePinning gestures) term ↔ gestures.getLast?.bind Gesture.pointed? = some term := by
  rw [← getLast?_sincePinning]
  refine pointsAt_iff fun g hg => ?_
  simpa using List.mem_rtakeWhile_imp hg

/-- The states on the way through some gestures are those that the beginnings
of the gestures lead to. -/
theorem mem_trace_iff {start s : Interaction} :
    s ∈ trace start gestures ↔ ∃ front, front <+: gestures ∧ s = run start front := by
  induction gestures generalizing start with
  | nil => simp [trace, run]
  | cons g gestures ih =>
    rw [trace, List.mem_cons, ih]
    constructor
    · rintro (rfl | ⟨front, hfront, rfl⟩)
      · exact ⟨[], List.nil_prefix, rfl⟩
      · exact ⟨g :: front, List.cons_prefix_cons.2 ⟨rfl, hfront⟩, rfl⟩
    · rintro ⟨front, hfront, rfl⟩
      rcases front with - | ⟨f, front⟩
      · exact Or.inl rfl
      · obtain ⟨rfl, hrest⟩ := List.cons_prefix_cons.1 hfront
        exact Or.inr ⟨front, hrest, rfl⟩

/-- A state shows nothing, a term under the pointer, or a pin. -/
theorem shown_cases (pin pointer : Option Text) :
    shown pin pointer = idle ∨ (∃ term, shown pin pointer = pointed term) ∨
      ∃ term, shown pin pointer = pinnedTo term := by
  rcases pin with - | term
  · rcases pointer with - | term
    · exact Or.inl rfl
    · exact Or.inr (Or.inl ⟨term, rfl⟩)
  · exact Or.inr (Or.inr ⟨term, rfl⟩)

/-- **A run shows its pin, or else its pointer.**  If the clicks and clears
leave a term pinned, the run ends with that term.  Otherwise it ends as the
gestures behind the last click or clear tell: with the term of the last hover
if no unhover follows it, and with nothing if there is no such hover.  So runs
that differ in hovers and unhovers have the same pin, and show the same term if
there is one; and on the way through a run there are states of these three
kinds alone. -/
theorem run_shows_pin_or_pointer (gestures : List Gesture) :
    (∀ term, pinnedBy gestures = some term → run idle gestures = pinnedTo term) ∧
    (pinnedBy gestures = none →
      (∀ other, pinnedBy other = none → sincePinning other = sincePinning gestures →
        run idle other = run idle gestures) ∧
      (∀ term, PointsAt (sincePinning gestures) term → run idle gestures = pointed term) ∧
      ((∀ term, ¬ PointsAt (sincePinning gestures) term) → run idle gestures = idle)) ∧
    (∀ other, other.filter Gesture.isPinning = gestures.filter Gesture.isPinning →
      (run idle other).pinned = (run idle gestures).pinned ∧
        ((run idle gestures).pinned ≠ none →
          (run idle other).active = (run idle gestures).active)) ∧
    ∀ s ∈ trace idle gestures, s = idle ∨ (∃ term, s = pointed term) ∨ ∃ term, s = pinnedTo term := by
  refine ⟨?_, ?_, ?_, ?_⟩
  · intro term hpin
    rw [run_eq_shown, hpin]
    rfl
  · intro hpin
    refine ⟨?_, ?_, ?_⟩
    · intro other hother hsince
      rw [run_eq_shown, run_eq_shown, hpin, hother, ← getLast?_sincePinning other, hsince,
        getLast?_sincePinning]
    · intro term hpoints
      rw [run_eq_shown, hpin, pointsAt_sincePinning_iff.1 hpoints]
      rfl
    · intro hpoints
      have hnone : gestures.getLast?.bind Gesture.pointed? = none :=
        Option.eq_none_iff_forall_ne_some.2 fun term h =>
          hpoints term (pointsAt_sincePinning_iff.2 h)
      rw [run_eq_shown, hpin, hnone]
      rfl
  · intro other hfilter
    have hpin : pinnedBy other = pinnedBy gestures := by rw [pinnedBy, hfilter, pinnedBy]
    rw [run_eq_shown, run_eq_shown, pinned_shown, pinned_shown, hpin]
    refine ⟨rfl, fun hne => ?_⟩
    obtain ⟨term, hterm⟩ := Option.ne_none_iff_exists'.1 hne
    rw [hterm]
    rfl
  · intro s hs
    obtain ⟨front, -, rfl⟩ := mem_trace_iff.1 hs
    rw [run_eq_shown]
    exact shown_cases _ _

/-- Hovers before and during a pin, a pin that moves and is released, and
hovers behind its release. -/
def releasedRun : List Gesture :=
  [.hover ['a'], .click ['b'], .hover ['c'], .click ['d'], .hover ['e'], .click ['d'],
   .unhover, .hover ['f'], .hover ['g']]

theorem run_shows_pin_or_pointer_releasedRun :
    (pinnedBy (releasedRun.take 5) = some ['d'] ∧
      run idle (releasedRun.take 5) = pinnedTo ['d']) ∧
    (pinnedBy (releasedRun.take 6) = none ∧
      (∀ term, ¬ PointsAt (sincePinning (releasedRun.take 6)) term) ∧
      run idle (releasedRun.take 6) = idle) ∧
    (pinnedBy releasedRun = none ∧ PointsAt (sincePinning releasedRun) ['g'] ∧
      run idle releasedRun = pointed ['g']) ∧
    ((releasedRun.take 4).filter Gesture.isPinning =
        (releasedRun.take 5).filter Gesture.isPinning ∧
      (run idle (releasedRun.take 5)).pinned ≠ none ∧
      (run idle (releasedRun.take 4)).active = (run idle (releasedRun.take 5)).active) := by
  have hpins : pinnedBy (releasedRun.take 5) = some ['d'] ∧
      pinnedBy (releasedRun.take 6) = none ∧ pinnedBy releasedRun = none := by decide
  obtain ⟨hpinned, hreleased, hend⟩ := hpins
  obtain ⟨hterm, -, hsame, -⟩ := run_shows_pin_or_pointer (releasedRun.take 5)
  obtain ⟨-, -, hidle⟩ := (run_shows_pin_or_pointer (releasedRun.take 6)).2.1 hreleased
  obtain ⟨-, hpointed, -⟩ := (run_shows_pin_or_pointer releasedRun).2.1 hend
  have hnone : ∀ term, ¬ PointsAt (sincePinning (releasedRun.take 6)) term := by
    intro term h
    cases pointsAt_sincePinning_iff.1 h
  have hlast : PointsAt (sincePinning releasedRun) ['g'] := pointsAt_sincePinning_iff.2 rfl
  have hfilter : (releasedRun.take 4).filter Gesture.isPinning =
      (releasedRun.take 5).filter Gesture.isPinning := by decide
  have hne : (run idle (releasedRun.take 5)).pinned ≠ none := by decide
  exact ⟨⟨hpinned, hterm _ hpinned⟩, ⟨hreleased, hnone, hidle hnone⟩,
    ⟨hend, hlast, hpointed _ hlast⟩, hfilter, hne, (hsame _ hfilter).2 hne⟩

end Interaction

end AnnotatedEquation
