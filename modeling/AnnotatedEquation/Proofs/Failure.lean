/-
AnnotatedEquation/Proofs/Failure.lean

Computations that fail in some ways alone.

* A failure `Failure.IsAccident` if nothing is said about it, and
  `Failure.IsOfPaletteFile` if it tells what a palette file lacks;
* a computation `FailsAs P` if every failure of it is a `P`.

What holds of the failures of the parts of a computation holds of those of the
whole (`FailsAs.bind`, `FailsAs.mapM`, `FailsAs.paintAll`).
-/
import AnnotatedEquation.Failure
import AnnotatedEquation.Proofs.Markup.Forest

namespace AnnotatedEquation

/-! ### Kinds of failures -/

/-- Nothing is said about the failure. -/
def Failure.IsAccident : Failure → Prop
  | oddDigit _ | badTemplate _ | undecodable _ => True
  | _ => False

/-- The failure tells what a palette file lacks. -/
def Failure.IsOfPaletteFile : Failure → Prop
  | badColors .. | notJson _ | noColorList _ => True
  | _ => False

/-- The computation fails in ways that are `P`, if it does. -/
def FailsAs {α : Type} (P : Failure → Prop) (x : Except Failure α) : Prop :=
  ∀ failure, x = .error failure → P failure

section

variable {α β : Type} {P Q : Failure → Prop}

theorem failsAs_ok (value : α) : FailsAs P (.ok value : Except Failure α) := nofun

theorem failsAs_error {failure : Failure} (h : P failure) :
    FailsAs P (.error failure : Except Failure α) := by
  intro other hother
  obtain rfl := Except.error.inj hother
  exact h

theorem FailsAs.mono {x : Except Failure α} (hx : FailsAs P x)
    (h : ∀ failure, P failure → Q failure) : FailsAs Q x :=
  fun failure hfailure => h failure (hx failure hfailure)

theorem FailsAs.bind {x : Except Failure α} {f : α → Except Failure β} (hx : FailsAs P x)
    (hf : ∀ value, FailsAs P (f value)) : FailsAs P (x >>= f) := by
  cases x with
  | error failure => exact failsAs_error (hx failure rfl)
  | ok value => exact hf value

theorem FailsAs.mapM {f : α → Except Failure β} {xs : List α} (hf : ∀ x ∈ xs, FailsAs P (f x)) :
    FailsAs P (xs.mapM f) := by
  induction xs with
  | nil => exact failsAs_ok _
  | cons x xs ih =>
    rw [List.mapM_cons]
    have hrest : FailsAs P (xs.mapM f) := ih fun y hy => hf y (List.mem_cons_of_mem _ hy)
    exact (hf x List.mem_cons_self).bind fun _ => hrest.bind fun _ => failsAs_ok _

theorem FailsAs.paintAll {choose : Text → Except Failure (Text → Text)}
    (hchoose : ∀ term, FailsAs P (choose term)) (fs : List Fragment) :
    FailsAs P (Fragment.paintAll choose fs) := by
  induction fs using Fragment.forest_induction with
  | nil =>
    rw [Fragment.paintAll]
    exact failsAs_ok _
  | plain text fs ih =>
    rw [Fragment.paintAll, Fragment.paint]
    exact (failsAs_ok _).bind fun _ => ih.bind fun _ => failsAs_ok _
  | tagged term body fs ihBody ihRest =>
    rw [Fragment.paintAll, Fragment.paint]
    have hpiece := (hchoose term).bind fun dress =>
      ihBody.bind fun inner => failsAs_ok (dress inner)
    exact hpiece.bind fun _ => ihRest.bind fun _ => failsAs_ok _

end

end AnnotatedEquation
